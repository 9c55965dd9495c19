import Mathlib.Tactic
import Folio.Proofs.Pdf.Graph
import Folio.Proofs.Text.Bytes

/-!
The bytes of a file: from its end to the table of places, and from a line of the table to the text
of the object (`Pdf.Document.bytes_places`). The lines of the table have twenty bytes as long as the
file has less than `10 ^ 10`.
-/

namespace Folio

namespace Pdf

/-- The text stands in the file from a place on. -/
def StandsAt (text : String) (file : ByteArray) (place : Nat) : Prop :=
  ∃ before after : ByteArray, file = before ++ text.toUTF8 ++ after ∧ before.size = place

lemma StandsAt.le_size {text : String} {file : ByteArray} {place : Nat}
    (h : StandsAt text file place) : place ≤ file.size := by
  obtain ⟨before, after, rfl, rfl⟩ := h
  simp only [ByteArray.size_append]
  omega

/-! ### Lines of the table -/

lemma utf8ByteSize_ofList_of_isDigit {digits : List Char} (h : ∀ c ∈ digits, c.isDigit = true) :
    (String.ofList digits).utf8ByteSize = digits.length := by
  rw [← Text.byteCount_toList, String.toList_ofList]
  induction digits with
  | nil => rfl
  | cons c digits ih =>
      obtain ⟨hc, hdigits⟩ := List.forall_mem_cons.1 h
      have hsize : c.utf8Size = 1 := by
        rw [Char.isDigit, Bool.and_eq_true, decide_eq_true_eq, decide_eq_true_eq] at hc
        exact Char.utf8Size_eq_one_iff.2 (UInt32.le_trans hc.2 (by decide))
      rw [Text.byteCount_cons, ih hdigits, hsize, List.length_cons, Nat.add_comm]

lemma utf8ByteSize_padded {width n : Nat} (hwidth : 0 < width) (h : n < 10 ^ width) :
    (padded width n).utf8ByteSize = width := by
  have hlength := Nat.toDigits_length 10 n width hwidth h
  rw [padded, utf8ByteSize_ofList_of_isDigit, List.length_append, List.length_replicate]
  · exact Nat.sub_add_cancel hlength
  · intro c hc
    rcases List.mem_append.1 hc with hc | hc
    · rw [List.eq_of_mem_replicate hc]
      rfl
    · exact Nat.isDigit_of_mem_toDigits (by decide) (by decide) hc

lemma utf8ByteSize_tableLine {offset generation : Nat} {mark : String} (hoffset : offset < 10 ^ 10)
    (hgeneration : generation < 10 ^ 5) (hmark : mark.utf8ByteSize = 1) :
    (tableLine offset generation mark).utf8ByteSize = 20 := by
  have htext : tableLine offset generation mark
      = padded 10 offset ++ " " ++ padded 5 generation ++ " " ++ mark ++ "\r\n" := rfl
  have hspace : " ".utf8ByteSize = 1 := by decide
  have hend : "\r\n".utf8ByteSize = 2 := by decide
  simp only [htext, String.utf8ByteSize_append, utf8ByteSize_padded (by decide) hoffset,
    utf8ByteSize_padded (by decide) hgeneration, hspace, hmark, hend]

/-- Lines of one size. -/
lemma utf8ByteSize_join_map {α : Type} {line : α → String} {size : Nat} {l : List α}
    (h : ∀ a ∈ l, (line a).utf8ByteSize = size) :
    (String.join (l.map line)).utf8ByteSize = size * l.length := by
  induction l with
  | nil => rfl
  | cons a l ih =>
      obtain ⟨ha, hl⟩ := List.forall_mem_cons.1 h
      rw [List.map_cons, String.join_cons, String.utf8ByteSize_append, ha, ih hl,
        List.length_cons, Nat.mul_succ, Nat.add_comm]

/-! ### Places -/

/-- The texts of some objects. -/
def body (objects : List (Nat × Object)) : String :=
  String.join (objects.map fun entry => numbered entry.1 entry.2)

lemma body_append_cons (before after : List (Nat × Object)) (id : Nat) (object : Object) :
    body (before ++ (id, object) :: after) = body before ++ numbered id object ++ body after := by
  simp [body, String.append_assoc]

lemma fst_placed (offset : Nat) (objects : List (Nat × Object)) :
    (placed offset objects).1 = objects.map fun entry => numbered entry.1 entry.2 := by
  induction objects generalizing offset with
  | nil => rfl
  | cons entry objects ih => exact congrArg _ (ih _)

/-- **The place of an object** is behind the texts of the objects before it. -/
lemma lookup_placed {before after : List (Nat × Object)} {id : Nat} {object : Object}
    (h : id ∉ before.map (·.1)) (offset : Nat) :
    (placed offset (before ++ (id, object) :: after)).2.lookup id
      = some (offset + (body before).utf8ByteSize) := by
  induction before generalizing offset with
  | nil => simp [placed, body]
  | cons entry before ih =>
      rw [List.map_cons, List.mem_cons, not_or] at h
      obtain ⟨hne, hbefore⟩ := h
      rw [List.cons_append, placed, List.lookup_cons, beq_eq_false_iff_ne.2 hne]
      simp [ih hbefore, body, Nat.add_assoc]

namespace Document

variable {document : Document}

/-- The place that the table has for a number. -/
def place (document : Document) (id : Nat) : Nat :=
  ((placed header.size document.objects).2.lookup id).getD 0

/-- The line of the table for a number. -/
def line (document : Document) (id : Nat) : String := tableLine (document.place id) 0 "n"

/-- The place of the table, behind the texts of the objects. -/
def table (document : Document) : Nat := header.size + (body document.objects).utf8ByteSize

/-- What comes behind the texts of the objects. -/
def rear (document : Document) : String :=
  tableHead (document.objects.length + 1) ++ (tableLine 0 65535 "f" ++
    (String.join ((List.range' 1 document.objects.length).map document.line) ++
      (trailer document ++ ending document.table)))

lemma bytes_eq (document : Document) :
    document.bytes = header ++ (body document.objects ++ document.rear).toUTF8 := by
  rw [bytes]
  simp only [fst_placed, closing, String.append_assoc, String.toUTF8, String.toByteArray_append,
    ByteArray.append_assoc]
  rfl

/-- A part of the text behind the header stands behind what comes before it. -/
lemma standsAt_of_eq {before text after : String}
    (h : body document.objects ++ document.rear = before ++ (text ++ after)) :
    StandsAt text document.bytes (header.size + before.utf8ByteSize) :=
  ⟨header ++ before.toUTF8, after.toUTF8, by simp [bytes_eq, h, ByteArray.append_assoc], by simp⟩

lemma exists_front (document : Document) :
    ∃ front, document.bytes = front ++ (ending document.table).toUTF8 := by
  refine ⟨header ++ (body document.objects ++ (tableHead (document.objects.length + 1) ++
    (tableLine 0 65535 "f" ++ (String.join ((List.range' 1 document.objects.length).map
      document.line) ++ trailer document)))).toUTF8, ?_⟩
  simp [bytes_eq, rear, ByteArray.append_assoc]

/-- The text of an object stands at its place, if no other object has its number. -/
lemma standsAt_place (hnodup : (document.objects.map (·.1)).Nodup) {id : Nat} {object : Object}
    (h : (id, object) ∈ document.objects) :
    StandsAt (numbered id object) document.bytes (document.place id) := by
  obtain ⟨before, after, hobjects⟩ := List.append_of_mem h
  have hfirst : id ∉ before.map (·.1) := fun hmem => by
    rw [hobjects, List.map_append, List.map_cons, List.nodup_append] at hnodup
    exact hnodup.2.2 id hmem id List.mem_cons_self rfl
  have hplace : document.place id = header.size + (body before).utf8ByteSize := by
    rw [place, hobjects, lookup_placed hfirst, Option.getD_some]
  have htext : body document.objects ++ document.rear
      = body before ++ (numbered id object ++ (body after ++ document.rear)) := by
    rw [hobjects, body_append_cons, String.append_assoc, String.append_assoc]
  exact hplace ▸ standsAt_of_eq htext

/-- The line for a number, behind the lines for the numbers below it. -/
lemma standsAt_line (hline : ∀ id ∈ List.range' 1 document.objects.length,
      (document.line id).utf8ByteSize = 20) {id : Nat}
    (hid : id ∈ List.range' 1 document.objects.length) :
    StandsAt (document.line id) document.bytes
      (document.table + (tableHead (document.objects.length + 1)).utf8ByteSize + 20 * id) := by
  obtain ⟨before, rfl, hlt⟩ : ∃ before, id = 1 + before ∧ before < document.objects.length := by
    rw [List.mem_range'_1] at hid
    exact ⟨id - 1, by omega, by omega⟩
  obtain ⟨after, hafter⟩ := Nat.exists_eq_add_of_lt hlt
  have hsplit : List.range' 1 document.objects.length
      = List.range' 1 before ++ (1 + before) :: List.range' (1 + before + 1) after := by
    rw [hafter, Nat.add_assoc, ← List.range'_append_1, List.range'_succ]
  have hbefore : (String.join ((List.range' 1 before).map document.line)).utf8ByteSize
      = 20 * before := by
    rw [utf8ByteSize_join_map fun i hi => hline i (hsplit ▸ List.mem_append_left _ hi),
      List.length_range']
  have hfree : (tableLine 0 65535 "f").utf8ByteSize = 20 :=
    utf8ByteSize_tableLine (by decide) (by decide) (by decide)
  have htext : body document.objects ++ document.rear
      = body document.objects ++ tableHead (document.objects.length + 1) ++
          tableLine 0 65535 "f" ++ String.join ((List.range' 1 before).map document.line) ++
        (document.line (1 + before) ++
          (String.join ((List.range' (1 + before + 1) after).map document.line) ++
            (trailer document ++ ending document.table))) := by
    rw [rear, hsplit]
    simp only [List.map_append, List.map_cons, String.join_append, String.join_cons,
      String.append_assoc]
  have hstands := standsAt_of_eq htext
  simp only [String.utf8ByteSize_append, hfree, hbefore] at hstands
  rw [table]
  convert hstands using 1
  omega

/-- **From the end of a file to an object.** Suppose that the objects of a document have the numbers
from one on, and that its file has less than `10 ^ 10` bytes. The end of the file tells the place of
the table, which has a line of twenty bytes for each number. The line for the number of an object
tells the place of its text. -/
theorem bytes_places (hnumbers : (document.objects.map (·.1)).Perm
      (List.range' 1 document.objects.length)) (hsize : document.bytes.size < 10 ^ 10) :
    ∃ table head, head = tableHead (document.objects.length + 1) ∧
      (∃ front, document.bytes = front ++ (ending table).toUTF8) ∧
      StandsAt head document.bytes table ∧
      ∀ id object, (id, object) ∈ document.objects → ∃ place,
        StandsAt (tableLine place 0 "n") document.bytes (table + head.utf8ByteSize + 20 * id) ∧
        StandsAt (numbered id object) document.bytes place := by
  have hnodup : (document.objects.map (·.1)).Nodup := hnumbers.nodup_iff.2 List.nodup_range'
  -- every line of the table is that of an object, so that its place fits into ten digits
  have hline : ∀ id ∈ List.range' 1 document.objects.length,
      (document.line id).utf8ByteSize = 20 := by
    intro id hid
    obtain ⟨⟨_, object⟩, hobject, rfl⟩ := List.mem_map.1 (hnumbers.mem_iff.2 hid)
    have hplace := (document.standsAt_place hnodup hobject).le_size
    exact utf8ByteSize_tableLine (hplace.trans_lt hsize) (by decide) (by decide)
  exact ⟨document.table, _, rfl, document.exists_front, standsAt_of_eq rfl,
    fun id object hobject => ⟨document.place id,
      standsAt_line hline (hnumbers.mem_iff.1 (List.mem_map_of_mem hobject)),
      standsAt_place hnodup hobject⟩⟩

end Document

/-- **The objects of a rendered file** are found from its end. -/
theorem render_places {pages : List Page} {setup : PageSetup} {info : Option Info}
    {file : ByteArray} (h : render pages setup info = .ok file) (hsize : file.size < 10 ^ 10) :
    ∃ table head, head = tableHead (objectCount pages.length info + 1) ∧
      (∃ front, file = front ++ (ending table).toUTF8) ∧ StandsAt head file table ∧
      ∀ id object, (id, object) ∈ (document pages setup.fontSize info).objects → ∃ place,
        StandsAt (tableLine place 0 "n") file (table + head.utf8ByteSize + 20 * id) ∧
        StandsAt (numbered id object) file place := by
  obtain ⟨-, rfl⟩ := render_eq_ok_iff.1 h
  have hperm := numbers_perm pages setup.fontSize info
  rw [← document_eq] at hperm
  have hlength : (document pages setup.fontSize info).objects.length
      = objectCount pages.length info := by
    simpa using hperm.length_eq
  rw [← hlength] at hperm ⊢
  exact Document.bytes_places hperm hsize

end Pdf

end Folio

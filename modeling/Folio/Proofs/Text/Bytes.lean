import Mathlib.Tactic
import Folio.Text.Utf8

/-!
Byte offsets into a text.

* `append_eq_append_of_le`: of two cuts of a text, the earlier one is a cut of what comes before the
  later one.
* `IsCut`: an offset between two characters. `IsByteOf`: an offset within a character; there is one
  for every byte, and it is determined.
-/

namespace Folio

namespace Text

@[simp] lemma byteCount_nil : byteCount [] = 0 := rfl

@[simp] lemma byteCount_cons (c : Char) (text : List Char) :
    byteCount (c :: text) = c.utf8Size + byteCount text := rfl

@[simp] lemma byteCount_append (a b : List Char) :
    byteCount (a ++ b) = byteCount a + byteCount b := by
  induction a with
  | nil => simp
  | cons c a ih => simp [ih, Nat.add_assoc]

/-- A text that is not empty has bytes. -/
lemma byteCount_pos {text : List Char} (h : text ≠ []) : 0 < byteCount text := by
  cases text with
  | nil => exact absurd rfl h
  | cons c text =>
      have hc := c.utf8Size_pos
      rw [byteCount_cons]
      omega

lemma byteCount_eq_zero_iff {text : List Char} : byteCount text = 0 ↔ text = [] := by
  constructor
  · intro h
    by_contra hne
    exact absurd h (byteCount_pos hne).ne'
  · rintro rfl
    rfl

lemma byteCount_toList (text : String) : byteCount text.toList = text.utf8ByteSize := by
  have hofList : ∀ cs : List Char, byteCount cs = (String.ofList cs).utf8ByteSize := by
    intro cs
    induction cs with
    | nil => rfl
    | cons c cs ih =>
        have hcons : String.ofList (c :: cs) = String.singleton c ++ String.ofList cs := by
          rw [← String.toList_inj]
          simp
        rw [hcons, String.utf8ByteSize_append, String.utf8ByteSize_singleton, ← ih, byteCount_cons]
  rw [hofList, String.ofList_toList]

/-! ### Cuts -/

/-- The earlier one of two cuts of a text cuts what comes before the later one. -/
lemma append_eq_append_of_le {a b c d : List Char} (h : a ++ b = c ++ d)
    (hle : byteCount a ≤ byteCount c) : ∃ m, c = a ++ m ∧ b = m ++ d := by
  rcases List.append_eq_append_iff.1 h with ⟨m, hc, hb⟩ | ⟨m, ha, hd⟩
  · exact ⟨m, hc, hb⟩
  · have hm : m = [] := by
      rw [← byteCount_eq_zero_iff]
      rw [ha, byteCount_append] at hle
      omega
    subst hm
    exact ⟨[], by simpa using ha.symm, by simpa using hd.symm⟩

lemma append_inj_of_byteCount {a b c d : List Char} (h : a ++ b = c ++ d)
    (heq : byteCount a = byteCount c) : a = c ∧ b = d := by
  obtain ⟨m, hc, hb⟩ := append_eq_append_of_le h heq.le
  have hm : m = [] := by
    rw [← byteCount_eq_zero_iff]
    rw [hc, byteCount_append] at heq
    omega
  subst hm
  exact ⟨by simpa using hc.symm, by simpa using hb⟩

/-- A stretch of a text that lies within another one is part of it. -/
lemma isInfix_of_le {a mid b pre word post : List Char}
    (h : a ++ (mid ++ b) = pre ++ (word ++ post)) (hstart : byteCount a ≤ byteCount pre)
    (hstop : byteCount (pre ++ word) ≤ byteCount (a ++ mid)) : word <:+: mid := by
  obtain ⟨m₁, rfl, hrest⟩ := append_eq_append_of_le h hstart
  rw [← List.append_assoc m₁ word post] at hrest
  have hle : byteCount (m₁ ++ word) ≤ byteCount mid := by
    simp only [byteCount_append] at hstop ⊢
    omega
  obtain ⟨m₂, rfl, -⟩ := append_eq_append_of_le hrest.symm hle
  exact ⟨m₁, m₂, rfl⟩

/-- The offset falls between two characters of the text, or at one of its ends. -/
def IsCut (text : List Char) (offset : Nat) : Prop :=
  ∃ pre post, text = pre ++ post ∧ byteCount pre = offset

lemma isCut_zero (text : List Char) : IsCut text 0 := ⟨[], text, rfl, rfl⟩

/-! ### Bytes -/

/-- The byte is one of the character `c` between two parts of the text. -/
def IsByteOf (text : List Char) (i : Nat) (pre : List Char) (c : Char) (post : List Char) : Prop :=
  text = pre ++ c :: post ∧ byteCount pre ≤ i ∧ i < byteCount pre + c.utf8Size

/-- Every byte of a text is one of some character. -/
lemma exists_isByteOf {text : List Char} {i : Nat} (h : i < byteCount text) :
    ∃ pre c post, IsByteOf text i pre c post := by
  induction text generalizing i with
  | nil => exact absurd h (Nat.not_lt_zero i)
  | cons x text ih =>
      by_cases hx : i < x.utf8Size
      · exact ⟨[], x, text, rfl, Nat.zero_le i, by simpa using hx⟩
      · rw [byteCount_cons] at h
        obtain ⟨pre, c, post, rfl, hle, hlt⟩ := ih (show i - x.utf8Size < byteCount text by omega)
        refine ⟨x :: pre, c, post, rfl, ?_, ?_⟩
        · rw [byteCount_cons]
          omega
        · rw [byteCount_cons]
          omega

namespace IsByteOf

variable {text pre post a b mid : List Char} {c : Char} {i : Nat}

/-- The first byte of a character. -/
lemma first (pre : List Char) (c : Char) (post : List Char) :
    IsByteOf (pre ++ c :: post) (byteCount pre) pre c post :=
  ⟨rfl, le_rfl, Nat.lt_add_of_pos_right c.utf8Size_pos⟩

lemma lt_byteCount (h : IsByteOf text i pre c post) : i < byteCount text := by
  obtain ⟨rfl, -, hlt⟩ := h
  rw [byteCount_append, byteCount_cons]
  omega

/-- A cut that is not behind a byte is not behind its character either. -/
lemma byteCount_le (h : IsByteOf text i pre c post) (htext : text = a ++ b)
    (hle : byteCount a ≤ i) : byteCount a ≤ byteCount pre := by
  obtain ⟨hchar, -, hlt⟩ := h
  by_contra hmore
  rw [hchar] at htext
  obtain ⟨m, rfl, hm⟩ := append_eq_append_of_le htext (by omega)
  cases m with
  | nil => simp at hmore
  | cons d m =>
      obtain ⟨rfl, -⟩ := List.cons.inj hm
      rw [byteCount_append, byteCount_cons] at hle
      omega

/-- A cut behind a byte is behind its character. -/
lemma byteCount_concat_le (h : IsByteOf text i pre c post) (htext : text = a ++ b)
    (hlt : i < byteCount a) : byteCount (pre ++ [c]) ≤ byteCount a := by
  obtain ⟨hchar, hle, -⟩ := h
  rw [hchar] at htext
  obtain ⟨m, rfl, hm⟩ := append_eq_append_of_le htext (hle.trans hlt.le)
  cases m with
  | nil =>
      rw [List.append_nil] at hlt
      omega
  | cons d m =>
      obtain ⟨rfl, -⟩ := List.cons.inj hm
      simp only [byteCount_append, byteCount_cons, byteCount_nil]
      omega

/-- The byte behind a cut belongs to a character behind it. -/
lemma exists_append_of_le (h : IsByteOf text i pre c post) (htext : text = a ++ b)
    (hle : byteCount a ≤ i) : ∃ m, pre = a ++ m ∧ b = m ++ c :: post :=
  append_eq_append_of_le (htext.symm.trans h.1) (h.byteCount_le htext hle)

/-- The byte of a stretch belongs to a character within it. -/
lemma exists_split (h : IsByteOf text i pre c post) (htext : text = a ++ (mid ++ b))
    (hle : byteCount a ≤ i) (hlt : i < byteCount (a ++ mid)) :
    ∃ m₁ m₂, pre = a ++ m₁ ∧ mid = m₁ ++ c :: m₂ := by
  have hstop := h.byteCount_concat_le (htext.trans (List.append_assoc a mid b).symm) hlt
  obtain ⟨m₁, rfl, hrest⟩ := h.exists_append_of_le htext hle
  rw [List.append_assoc a, byteCount_append a, byteCount_append a] at hstop
  rw [List.append_cons] at hrest
  obtain ⟨m₂, hmid, -⟩ := append_eq_append_of_le hrest.symm (Nat.le_of_add_le_add_left hstop)
  exact ⟨m₁, m₂, rfl, by rw [hmid, ← List.append_cons]⟩

lemma mem (h : IsByteOf text i pre c post) (htext : text = a ++ (mid ++ b))
    (hle : byteCount a ≤ i) (hlt : i < byteCount (a ++ mid)) : c ∈ mid := by
  obtain ⟨m₁, m₂, -, rfl⟩ := h.exists_split htext hle hlt
  exact List.mem_append_right m₁ List.mem_cons_self

lemma exists_of_mem (htext : text = a ++ (mid ++ b)) (hc : c ∈ mid) :
    ∃ i pre post, IsByteOf text i pre c post ∧ byteCount a ≤ i ∧ i < byteCount (a ++ mid) := by
  obtain ⟨m₁, m₂, rfl⟩ := List.append_of_mem hc
  have hi := first (a ++ m₁) c (m₂ ++ b)
  refine ⟨byteCount (a ++ m₁), a ++ m₁, m₂ ++ b, ?_, ?_, ?_⟩
  · simpa [htext] using hi
  · simp
  · have hpos := c.utf8Size_pos
    simp only [byteCount_append, byteCount_cons]
    omega

/-- The character of a byte is determined. -/
lemma unique {pre' post' : List Char} {c' : Char} (h : IsByteOf text i pre c post)
    (h' : IsByteOf text i pre' c' post') : pre = pre' ∧ c = c' ∧ post = post' := by
  have hle := h.byteCount_le h'.1 h'.2.1
  have hle' := h'.byteCount_le h.1 h.2.1
  obtain ⟨rfl, hrest⟩ := append_inj_of_byteCount (h.1.symm.trans h'.1) (by omega)
  obtain ⟨rfl, rfl⟩ := List.cons.inj hrest
  exact ⟨rfl, rfl, rfl⟩

end IsByteOf

/-! ### Cutting -/

lemma dropBytes?_append (pre post : List Char) :
    dropBytes? (byteCount pre) (pre ++ post) = some post := by
  induction pre with
  | nil => rw [byteCount_nil, dropBytes?, List.nil_append]
  | cons c pre ih =>
      obtain ⟨n, hn⟩ : ∃ n, byteCount (c :: pre) = n + 1 :=
        Nat.exists_eq_succ_of_ne_zero (byteCount_pos (List.cons_ne_nil c pre)).ne'
      have hrest : n + 1 - c.utf8Size = byteCount pre := by
        rw [← hn, byteCount_cons, Nat.add_sub_cancel_left]
      rw [hn, List.cons_append, dropBytes?, if_pos (by rw [byteCount_cons] at hn; omega), hrest, ih]

lemma takeBytes?_append (pre post : List Char) :
    takeBytes? (byteCount pre) (pre ++ post) = some pre := by
  induction pre with
  | nil => rw [byteCount_nil, takeBytes?]
  | cons c pre ih =>
      obtain ⟨n, hn⟩ : ∃ n, byteCount (c :: pre) = n + 1 :=
        Nat.exists_eq_succ_of_ne_zero (byteCount_pos (List.cons_ne_nil c pre)).ne'
      have hrest : n + 1 - c.utf8Size = byteCount pre := by
        rw [← hn, byteCount_cons, Nat.add_sub_cancel_left]
      rw [hn, List.cons_append, takeBytes?, if_pos (by rw [byteCount_cons] at hn; omega), hrest, ih,
        Option.map_some]

end Text

end Folio

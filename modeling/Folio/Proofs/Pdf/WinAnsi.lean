import Mathlib.Tactic
import Folio.Layout.Measurer
import Folio.Pdf.WinAnsi

/-!
Encoded text, read back.

* `WinAnsi.decodeByte?`: the character of a byte. Thirty-eight bytes stand for no character: the
  controls of ASCII and the five holes of the table.
* `WinAnsi.decodeByte?_encodeChar`: the byte of a character stands for it, or for the question mark
  if the character is not `WinAnsi.InRepertoire`. All else follows from this.
-/

namespace Folio

namespace WinAnsi

/-! ### Reading the table -/

/-- The character that a byte stands for. -/
def decodeByte? (byte : UInt8) : Option Char :=
  let code := byte.toNat
  if 0x20 ≤ code ∧ code ≤ 0x7e ∨ 0xa0 ≤ code then some (Char.ofNat code)
  else if 0x80 ≤ code then (high[code - 0x80]?).join
  else none

/-- The text of some bytes, if each of them stands for a character. -/
def decode? (bytes : List UInt8) : Option String := String.ofList <$> bytes.mapM decodeByte?

/-- The bytes of the upper half that stand for no character. -/
def holes : List UInt8 := [0x81, 0x8d, 0x8f, 0x90, 0x9d]

/-- Some byte stands for the character. -/
def InRepertoire (c : Char) : Prop := ∃ byte, decodeByte? byte = some c

/-- The bytes with characters are the printable ones of ASCII, and those of the upper half that are
no holes. -/
lemma isSome_decodeByte?_iff (byte : UInt8) :
    (decodeByte? byte).isSome = true ↔ 0x20 ≤ byte ∧ byte ≠ 0x7f ∧ byte ∉ holes := by
  have htable : ∀ code : Fin 256, (decodeByte? (UInt8.ofFin code)).isSome = true ↔
      0x20 ≤ UInt8.ofFin code ∧ UInt8.ofFin code ≠ 0x7f ∧ UInt8.ofFin code ∉ holes := by
    decide +kernel
  exact htable byte.toFin

lemma decodeByte?_of_isDirect {c : Char} (h : isDirect c.toNat = true) :
    decodeByte? c.toNat.toUInt8 = some c := by
  simp only [isDirect, Bool.or_eq_true, Bool.and_eq_true, decide_eq_true_eq] at h
  have hcode : c.toNat.toUInt8.toNat = c.toNat := Nat.mod_eq_of_lt (show c.toNat < 256 by omega)
  rw [decodeByte?, hcode, if_pos (by omega), Char.ofNat_toNat]

/-- A character of the table is read off the byte of its place. -/
lemma decodeByte?_of_high {c : Char} {place : Nat} (h : high[place]? = some (some c)) :
    decodeByte? (0x80 + place).toUInt8 = some c := by
  have hplace : place < 32 := (List.getElem?_eq_some_iff.1 h).1
  have hcode : (0x80 + place).toUInt8.toNat = 0x80 + place :=
    Nat.mod_eq_of_lt (show 0x80 + place < 256 by omega)
  rw [decodeByte?, hcode, if_neg (by omega), if_pos (by omega), Nat.add_sub_cancel_left, h]
  rfl

/-- **The repertoire** is the characters whose codes are bytes of their own, and those of the
table. -/
lemma inRepertoire_iff {c : Char} : InRepertoire c ↔ isDirect c.toNat = true ∨ some c ∈ high := by
  constructor
  · rintro ⟨byte, hbyte⟩
    rw [decodeByte?] at hbyte
    have hlt := byte.toNat_lt
    split at hbyte
    · rename_i hdirect
      have hvalid : byte.toNat.isValidChar := .inl (by omega)
      have hc : (Char.ofNat byte.toNat).toNat = byte.toNat := by
        rw [Char.ofNat, dif_pos hvalid]
        rfl
      rw [← Option.some.inj hbyte, hc]
      simp only [isDirect, Bool.or_eq_true, Bool.and_eq_true, decide_eq_true_eq]
      omega
    · split at hbyte
      · exact .inr (List.mem_of_getElem? (Option.join_eq_some_iff.1 hbyte))
      · cases hbyte
  · rintro (hdirect | hhigh)
    · exact ⟨_, decodeByte?_of_isDirect hdirect⟩
    · obtain ⟨place, hplace⟩ := List.getElem?_of_mem hhigh
      exact ⟨_, decodeByte?_of_high hplace⟩

instance : DecidablePred InRepertoire := fun _ => decidable_of_iff _ inRepertoire_iff.symm

/-! ### Reading what was encoded -/

/-- What is shown for a character: the character itself, if it has a byte. -/
def shownChar (c : Char) : Char := if InRepertoire c then c else '?'

lemma shownChar_of_inRepertoire {c : Char} (h : InRepertoire c) : shownChar c = c := if_pos h

/-- **The byte of a character** stands for what is shown for it. -/
theorem decodeByte?_encodeChar (c : Char) : decodeByte? (encodeChar c) = some (shownChar c) := by
  rw [encodeChar]
  split
  · rename_i hdirect
    rw [shownChar_of_inRepertoire (inRepertoire_iff.2 (.inl hdirect))]
    exact decodeByte?_of_isDirect hdirect
  · rename_i hdirect
    split
    · rename_i place hplace
      obtain ⟨hlt, heq, -⟩ := List.findIdx?_eq_some_iff_getElem.1 hplace
      have hhigh : high[place]? = some (some c) := by
        rw [List.getElem?_eq_getElem hlt, beq_iff_eq.1 heq]
      rw [shownChar_of_inRepertoire ⟨_, decodeByte?_of_high hhigh⟩]
      exact decodeByte?_of_high hhigh
    · rename_i hnone
      have hhigh : some c ∉ high := fun hmem => by
        have hne := List.findIdx?_eq_none_iff.1 hnone (some c) hmem
        simp at hne
      have hmissing : ¬ InRepertoire c := fun h => (inRepertoire_iff.1 h).elim hdirect hhigh
      rw [shownChar, if_neg hmissing]
      rfl

/-- **An encoded text is read as what is shown for it.** -/
theorem decode?_encode (text : String) :
    decode? (encode text) = some (String.ofList (text.toList.map shownChar)) := by
  have hchars : (text.toList.map encodeChar).mapM decodeByte?
      = some (text.toList.map shownChar) := by
    induction text.toList with
    | nil => rfl
    | cons c chars ih =>
        rw [List.map_cons, List.mapM_cons, decodeByte?_encodeChar, ih]
        rfl
  rw [decode?, encode, hchars]
  rfl

example : decode? (encode "1 € ≈ 160 ¥\t") = some "1 € ? 160 ¥?" := by decide

/-- Encoded texts hold only bytes that stand for characters. -/
lemma assigned_of_mem_encode {text : String} {byte : UInt8} (h : byte ∈ encode text) :
    0x20 ≤ byte ∧ byte ≠ 0x7f ∧ byte ∉ holes := by
  obtain ⟨c, -, rfl⟩ := List.mem_map.1 h
  rw [← isSome_decodeByte?_iff, decodeByte?_encodeChar]
  rfl

lemma decode?_encode_of_inRepertoire {text : String} (h : ∀ c ∈ text.toList, InRepertoire c) :
    decode? (encode text) = some text := by
  have hshown : text.toList.map shownChar = text.toList.map id :=
    List.map_congr_left fun c hc => shownChar_of_inRepertoire (h c hc)
  rw [decode?_encode, hshown, List.map_id, String.ofList_toList]

lemma encode_injOn : Set.InjOn encode {text | ∀ c ∈ text.toList, InRepertoire c} := by
  intro text htext other hother heq
  refine Option.some.inj ?_
  calc some text = decode? (encode text) := (decode?_encode_of_inRepertoire htext).symm
    _ = decode? (encode other) := by rw [heq]
    _ = some other := decode?_encode_of_inRepertoire hother

/-- **The space, and no other character**, has the byte of the space. The question mark, which
stands in for characters without a byte, has another one. -/
theorem encodeChar_eq_space_iff (c : Char) : encodeChar c = 0x20 ↔ c = ' ' := by
  constructor
  · intro h
    have hshown : some (shownChar c) = some ' ' := by
      rw [← decodeByte?_encodeChar, h]
      rfl
    by_cases hc : InRepertoire c
    · rwa [shownChar_of_inRepertoire hc, Option.some.injEq] at hshown
    · rw [shownChar, if_neg hc] at hshown
      cases hshown
  · rintro rfl
    rfl

/-- **The encoding is faithful.** A text has one byte for each character, so that in a font with one
width for all bytes it is as wide as its characters measure. No byte is a control or a hole of the
table. The bytes are read as the text, with a question mark for each character outside the
repertoire; hence texts over the repertoire can be told apart by their bytes, and only the space has
the byte of the space. -/
theorem encode_faithful (text : String) :
    (encode text).length = text.length ∧
    (∀ fontSize, Measurer.courier fontSize text
      = .ok (Measurer.courierAdvance fontSize * (.ofNat (encode text).length : Binary32))) ∧
    (∀ byte ∈ encode text, 0x20 ≤ byte ∧ byte ≠ 0x7f ∧ byte ∉ holes) ∧
    decode? (encode text)
      = some (String.ofList (text.toList.map fun c => if InRepertoire c then c else '?')) ∧
    (∀ other, (∀ c ∈ text.toList, InRepertoire c) → (∀ c ∈ other.toList, InRepertoire c) →
      encode text = encode other → text = other) ∧
    ∀ c, encodeChar c = 0x20 ↔ c = ' ' := by
  have hlength : (encode text).length = text.length := by
    rw [encode, List.length_map, String.length_toList]
  refine ⟨hlength, fun fontSize => ?_, fun byte => assigned_of_mem_encode, decode?_encode text,
    fun other htext hother heq => encode_injOn htext hother heq, encodeChar_eq_space_iff⟩
  rw [hlength]
  rfl

end WinAnsi

end Folio

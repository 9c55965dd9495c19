import Mathlib.Tactic
import Folio.Proofs.Layout.LineWords

/-!
Normalising a text in a single scan. The three replacements of `normalise` do not get into each
other's way, and do what `scanChars` does, which looks ahead by one character
(`normaliseChars_eq_scanChars`).
-/

namespace Folio

/-! ### The scan -/

/-- One scan of a text: every end of a line becomes a line feed, and every tab four spaces. Only
behind a carriage return does it matter which character is next. -/
def scanChars : List Char → List Char
  | '\r' :: '\n' :: text => '\n' :: scanChars text
  | '\r' :: text => '\n' :: scanChars text
  | '\t' :: text => tab ++ scanChars text
  | c :: text => c :: scanChars text
  | [] => []

/-- A character that is left as it is: neither a carriage return nor a tab. -/
def IsNormal (c : Char) : Prop := c ≠ '\r' ∧ c ≠ '\t'

lemma normaliseChars_singleton {c : Char} (hc : IsNormal c) : normaliseChars [c] = [c] := by
  rw [normaliseChars, mergeReturns_cons, if_neg (by simp), mergeReturns]
  simp [hc.1, hc.2]

/-- **Three replacements do what one scan does.** -/
theorem normaliseChars_eq_scanChars (text : List Char) : normaliseChars text = scanChars text := by
  fun_induction scanChars text with
  | case1 text ih =>
      -- both characters of an end of a line
      rw [← ih]
      exact normaliseChars_append_return [] text
  | case2 text hnext ih =>
      -- a carriage return without a line feed behind it
      have hsplit : ¬ SplitsReturn ['\r'] text := by
        intro hmeet
        obtain ⟨rest, hrest⟩ := List.head?_eq_some_iff.1 hmeet.2
        exact hnext rest hrest
      rw [← List.singleton_append, normaliseChars_append hsplit, ih]
      rfl
  | case3 text ih =>
      rw [← List.singleton_append, normaliseChars_append (by simp [SplitsReturn]), ih]
      rfl
  | case4 c text _ hreturn htab ih =>
      have hsplit : ¬ SplitsReturn [c] text := fun hmeet => hreturn (Option.some.inj hmeet.1)
      rw [← List.singleton_append, normaliseChars_append hsplit,
        normaliseChars_singleton ⟨hreturn, htab⟩, ih, List.singleton_append]
  | case5 => rfl

/-- **A scanned text** has neither carriage returns nor tabs. -/
lemma isNormal_of_mem_scanChars {c : Char} {text : List Char} (h : c ∈ scanChars text) :
    IsNormal c := by
  fun_induction scanChars text with
  | case1 text ih | case2 text _ ih =>
      rcases List.mem_cons.1 h with rfl | h
      · exact ⟨by decide, by decide⟩
      · exact ih h
  | case3 text ih =>
      rcases List.mem_append.1 h with h | h
      · obtain rfl : c = ' ' := by simpa [tab] using h
        exact ⟨by decide, by decide⟩
      · exact ih h
  | case4 d text _ hreturn htab ih =>
      rcases List.mem_cons.1 h with rfl | h
      · exact ⟨hreturn, htab⟩
      · exact ih h
  | case5 => exact absurd h List.not_mem_nil

lemma scanChars_eq_self {text : List Char} (h : ∀ c ∈ text, IsNormal c) :
    scanChars text = text := by
  fun_induction scanChars text with
  | case1 text _ | case2 text _ _ => exact absurd rfl (h '\r' List.mem_cons_self).1
  | case3 text _ => exact absurd rfl (h '\t' List.mem_cons_self).2
  | case4 c text _ _ _ ih => rw [ih fun d hd => h d (List.mem_cons_of_mem c hd)]
  | case5 => rfl

/-! ### Texts -/

lemma normalise_eq_scan (text : String) :
    normalise text = String.ofList (scanChars text.toList) := by
  rw [normalise_eq, normaliseChars_eq_scanChars]

/-- **Two texts that meet within one end of a line** have a line feed each, of which one is lost. -/
lemma exists_normalise_append {a b : String} (h : SplitsReturn a.toList b.toList) :
    ∃ before after, normalise a = before ++ "\n" ∧ normalise b = "\n" ++ after ∧
      normalise (a ++ b) = before ++ "\n" ++ after := by
  obtain ⟨hlast, hhead⟩ := h
  obtain ⟨init, ha⟩ := List.getLast?_eq_some_iff.1 hlast
  obtain ⟨rest, hb⟩ := List.head?_eq_some_iff.1 hhead
  refine ⟨String.ofList (normaliseChars init), String.ofList (normaliseChars rest), ?_, ?_, ?_⟩
  · rw [normalise_eq, ha, normaliseChars_append (by simp [SplitsReturn]), String.ofList_append]
    rfl
  · rw [normalise_eq, hb, ← List.singleton_append, normaliseChars_append (by simp [SplitsReturn]),
      String.ofList_append]
    rfl
  · rw [normalise_eq, String.toList_append, ha, hb, List.append_assoc, List.singleton_append,
      normaliseChars_append_return, ← List.singleton_append, ← List.append_assoc,
      String.ofList_append, String.ofList_append]

/-- **Texts are normalised apart**, unless they meet within one end of a line. -/
lemma normalise_append_iff {a b : String} :
    normalise (a ++ b) = normalise a ++ normalise b ↔ ¬ SplitsReturn a.toList b.toList := by
  constructor
  · intro heq hsplit
    -- the line feed that is lost makes the text shorter
    obtain ⟨before, after, ha, hb, hab⟩ := exists_normalise_append hsplit
    have hlength := congrArg String.length (hab.symm.trans heq)
    rw [ha, hb] at hlength
    simp only [String.length_append] at hlength
    have hfeed : "\n".length = 1 := by decide
    omega
  · intro hsplit
    rw [normalise_eq, String.toList_append, normaliseChars_append hsplit, String.ofList_append]
    rfl

/-- **Normalising is a single scan from the left.** Hence a normalised text has neither carriage
returns nor tabs, and stays as it is when it is normalised again. A text is normalised part by part
wherever it is cut, except between a carriage return and its line feed: there the two parts have one
line feed more than the whole. -/
theorem normalise_single_scan (text : String) :
    normalise text = String.ofList (scanChars text.toList) ∧
    (∀ c ∈ (normalise text).toList, c ≠ '\r' ∧ c ≠ '\t') ∧
    normalise (normalise text) = normalise text ∧
    ∀ other : String,
      (normalise (text ++ other) = normalise text ++ normalise other
        ↔ ¬ SplitsReturn text.toList other.toList) ∧
      (SplitsReturn text.toList other.toList →
        ∃ before after, normalise text = before ++ "\n" ∧ normalise other = "\n" ++ after ∧
          normalise (text ++ other) = before ++ "\n" ++ after) := by
  have hnormal : ∀ c ∈ (normalise text).toList, IsNormal c := fun c hc => by
    rw [normalise_eq_scan, String.toList_ofList] at hc
    exact isNormal_of_mem_scanChars hc
  refine ⟨normalise_eq_scan text, hnormal, ?_, fun other =>
    ⟨normalise_append_iff, exists_normalise_append⟩⟩
  rw [normalise_eq_scan (normalise text), scanChars_eq_self hnormal, String.ofList_toList]

/-- The second carriage return of the first text and the first line feed of the second one are one
end of a line. -/
theorem normalise_single_scan_of_cut_return :
    let text := "a\r\r"
    let other := "\n\n\r\tb"
    SplitsReturn text.toList other.toList ∧
    ∃ before after, normalise text = before ++ "\n" ∧ normalise other = "\n" ++ after ∧
      normalise (text ++ other) = before ++ "\n" ++ after := by
  intro text other
  have hsplit : SplitsReturn text.toList other.toList := ⟨by decide +kernel, by decide +kernel⟩
  exact ⟨hsplit, ((normalise_single_scan text).2.2.2 other).2 hsplit⟩

end Folio

import Mathlib.Tactic
import Folio.Proofs.Highlight.Occurrences
import Folio.Proofs.Highlight.Paint
import Folio.Proofs.Layout.LineWords

/-!
Patterns in a text whose returns are merged.

* `Cursor.Merges`: the places of a text and of the merged text that correspond; no return is split
  between the two sides of a place in `Cursor.MergesApart`.
* `Pattern.IgnoresReturns`: a pattern of characters that end no line. `Pattern.MergesReturns`: a
  pattern whose preferred ends correspond wherever it can start.
* `Pattern.MergesReturns.forall₂_occurrences`: such a pattern finds corresponding stretches.
-/

namespace Folio

open Text

/-! ### Merging on one side of a place -/

/-- The character stays when returns are merged. -/
def Kept (c : Char) (rest : List Char) : Prop := ¬ (c = '\r' ∧ rest.head? = some '\n')

instance (c : Char) (rest : List Char) : Decidable (Kept c rest) :=
  inferInstanceAs (Decidable (¬ (c = '\r' ∧ rest.head? = some '\n')))

/-- What is left of a text that `rest` follows, when returns are merged. -/
def keptBefore (rest : List Char) : List Char → List Char
  | [] => []
  | c :: text => if Kept c (text ++ rest) then c :: keptBefore rest text else keptBefore rest text

variable {c x : Char} {a b pre mid post rest text mark : List Char}

@[simp] lemma keptBefore_nil (rest : List Char) : keptBefore rest [] = [] := rfl

lemma kept_of_not_isLineEnd (h : ¬ IsLineEnd c) (rest : List Char) : Kept c rest :=
  fun hreturn => h (.inr hreturn.1)

lemma mergeReturns_of_kept (h : Kept c rest) :
    mergeReturns (c :: rest) = c :: mergeReturns rest := by
  rw [mergeReturns_cons]
  exact if_neg h

lemma mergeReturns_of_not_kept (h : ¬ Kept c rest) :
    mergeReturns (c :: rest) = mergeReturns rest := by
  rw [mergeReturns_cons]
  exact if_pos (not_not.1 h)

/-- **Merging a text** merges the two sides of a place. -/
lemma mergeReturns_append_eq (pre rest : List Char) :
    mergeReturns (pre ++ rest) = keptBefore rest pre ++ mergeReturns rest := by
  induction pre with
  | nil => rfl
  | cons c pre ih =>
      rw [List.cons_append, keptBefore]
      split
      · rename_i h
        rw [mergeReturns_of_kept h, ih, List.cons_append]
      · rename_i h
        rw [mergeReturns_of_not_kept h, ih]

lemma keptBefore_append (rest a b : List Char) :
    keptBefore rest (a ++ b) = keptBefore (b ++ rest) a ++ keptBefore rest b := by
  have htext : keptBefore rest (a ++ b) ++ mergeReturns rest
      = keptBefore (b ++ rest) a ++ keptBefore rest b ++ mergeReturns rest := by
    rw [List.append_assoc, ← mergeReturns_append_eq, ← mergeReturns_append_eq,
      ← mergeReturns_append_eq, List.append_assoc]
  exact List.append_cancel_right htext

lemma keptBefore_cons_of_kept (h : Kept c (text ++ rest)) :
    keptBefore rest (c :: text) = c :: keptBefore rest text := if_pos h

lemma keptBefore_concat_of_kept (h : Kept c rest) (pre : List Char) :
    keptBefore rest (pre ++ [c]) = keptBefore (c :: rest) pre ++ [c] := by
  rw [keptBefore_append, keptBefore_cons_of_kept h]
  rfl

lemma keptBefore_concat_of_not_kept (h : ¬ Kept c rest) (pre : List Char) :
    keptBefore rest (pre ++ [c]) = keptBefore (c :: rest) pre := by
  rw [keptBefore_append, keptBefore, List.nil_append, if_neg h, keptBefore_nil, List.append_nil]
  rfl

lemma mem_of_mem_keptBefore (h : c ∈ keptBefore rest text) : c ∈ text := by
  induction text with
  | nil => exact h
  | cons d text ih =>
      rw [keptBefore] at h
      split at h
      · exact (List.mem_cons.1 h).elim (fun heq => heq ▸ List.mem_cons_self)
          fun h => List.mem_cons_of_mem d (ih h)
      · exact List.mem_cons_of_mem d (ih h)

lemma keptBefore_eq_self (h : ∀ c ∈ text, ¬ IsLineEnd c) (rest : List Char) :
    keptBefore rest text = text := by
  induction text with
  | nil => rfl
  | cons c text ih =>
      rw [keptBefore_cons_of_kept (kept_of_not_isLineEnd (h c List.mem_cons_self) _),
        ih fun d hd => h d (List.mem_cons_of_mem c hd)]

/-- If no return is split, merging one side of a place is merging it alone. -/
lemma keptBefore_eq_mergeReturns (h : ¬ SplitsReturn pre rest) :
    keptBefore rest pre = mergeReturns pre := by
  have htext : keptBefore rest pre ++ mergeReturns rest
      = mergeReturns pre ++ mergeReturns rest := by
    rw [← mergeReturns_append_eq, mergeReturns_append h]
  exact List.append_cancel_right htext

/-- A class without the ends of lines does not tell the start of the merged text from that of the
text. -/
lemma any_head?_mergeReturns {inClass : Char → Bool} (hreturn : inClass '\r' = false)
    (hfeed : inClass '\n' = false) (rest : List Char) :
    (mergeReturns rest).head?.any inClass = rest.head?.any inClass := by
  cases rest with
  | nil => rfl
  | cons c rest =>
      by_cases h : Kept c rest
      · rw [mergeReturns_of_kept h]
        rfl
      · obtain ⟨rfl, hhead⟩ := not_not.1 h
        obtain ⟨rest, rfl⟩ := List.head?_eq_some_iff.1 hhead
        simp [mergeReturns, hreturn, hfeed]

lemma getLast?_mergeReturns (text : List Char) :
    (mergeReturns text).getLast? = text.getLast? := by
  rcases List.eq_nil_or_concat text with rfl | ⟨pre, c, rfl⟩
  · rfl
  · have hlast : Kept c [] := fun h => by simp at h
    rw [List.concat_eq_append, mergeReturns_append_eq, mergeReturns_of_kept hlast,
      List.getLast?_append, List.getLast?_append]
    rfl

/-- A mark of characters that end no line starts the merged text if it starts the text. -/
lemma prefix_mergeReturns_iff (h : ∀ c ∈ mark, ¬ IsLineEnd c) :
    mark <+: mergeReturns rest ↔ mark <+: rest := by
  induction mark generalizing rest with
  | nil => simp
  | cons m mark ih =>
      have hm := h m List.mem_cons_self
      cases rest with
      | nil => rfl
      | cons c rest =>
          by_cases hc : Kept c rest
          · rw [mergeReturns_of_kept hc, List.cons_prefix_cons, List.cons_prefix_cons,
              ih fun d hd => h d (List.mem_cons_of_mem m hd)]
          · obtain ⟨rfl, hhead⟩ := not_not.1 hc
            obtain ⟨rest, rfl⟩ := List.head?_eq_some_iff.1 hhead
            have hne : m ≠ '\r' := fun heq => hm (.inr heq)
            have hne' : m ≠ '\n' := fun heq => hm (.inl heq)
            simp [mergeReturns, hne, hne']

/-! ### Corresponding places -/

namespace Cursor

/-- The places of a text and of the text with merged returns that correspond. -/
def Merges (text : List Char) (c d : Cursor) : Prop :=
  ∃ pre rest, text = pre ++ rest ∧ c = between pre rest ∧
    d = between (keptBefore rest pre) (mergeReturns rest)

/-- Corresponding places, neither of them within the end of a line. -/
def MergesApart (text : List Char) (c d : Cursor) : Prop :=
  ∃ pre rest, text = pre ++ rest ∧ ¬ SplitsReturn pre rest ∧ c = between pre rest ∧
    d = between (mergeReturns pre) (mergeReturns rest)

variable {d e : Cursor} {inClass : Char → Bool}

lemma MergesApart.merges (h : MergesApart text d e) : Merges text d e := by
  obtain ⟨pre, rest, htext, hsplit, rfl, rfl⟩ := h
  exact ⟨pre, rest, htext, rfl, by rw [keptBefore_eq_mergeReturns hsplit]⟩

lemma merges_between (pre rest : List Char) :
    Merges (pre ++ rest) (between pre rest)
      (between (keptBefore rest pre) (mergeReturns rest)) :=
  ⟨pre, rest, rfl, rfl, rfl⟩

/-- The place that corresponds to a given one is determined. -/
lemma Merges.eq_between (h : Merges (pre ++ rest) (between pre rest) e) :
    e = between (keptBefore rest pre) (mergeReturns rest) := by
  obtain ⟨pre', rest', htext, hd, rfl⟩ := h
  obtain ⟨rfl, rfl⟩ := append_inj_of_byteCount htext (congrArg Cursor.offset hd)
  rfl

/-- A character that ends no line leads from corresponding places to corresponding ones. -/
lemma mergesApart_concat (hsplit : ¬ SplitsReturn pre (x :: rest)) (hx : ¬ IsLineEnd x) :
    MergesApart (pre ++ x :: rest) (between (pre ++ [x]) rest)
      (between (mergeReturns pre ++ [x]) (mergeReturns rest)) := by
  have hbehind : ¬ SplitsReturn (pre ++ [x]) rest := fun ⟨hlast, _⟩ =>
    hx (.inr (by simpa using hlast))
  refine ⟨pre ++ [x], rest, by simp, hbehind, rfl, ?_⟩
  rw [← keptBefore_eq_mergeReturns hbehind,
    keptBefore_concat_of_kept (kept_of_not_isLineEnd hx rest), keptBefore_eq_mergeReturns hsplit]

/-! ### Patterns that ignore the ends of lines -/

/-- A character of a class without the ends of lines is taken at both places or at none. -/
lemma MergesApart.step? (hclass : inClass '\r' = false ∧ inClass '\n' = false)
    (h : MergesApart text d e) :
    Option.Rel (MergesApart text) (d.step? inClass) (e.step? inClass) := by
  obtain ⟨pre, rest, rfl, hsplit, rfl, rfl⟩ := h
  cases rest with
  | nil => exact .none
  | cons x rest =>
      by_cases hx : inClass x = true
      · have hxend : ¬ IsLineEnd x := by
          rintro (rfl | rfl)
          · exact Bool.false_ne_true (hclass.2.symm.trans hx)
          · exact Bool.false_ne_true (hclass.1.symm.trans hx)
        have hsource : (between pre (x :: rest)).step? inClass = some (between (pre ++ [x]) rest) :=
          step?_between_eq_some_iff.2 ⟨x, rest, rfl, hx, rfl⟩
        have htarget : (between (mergeReturns pre) (mergeReturns (x :: rest))).step? inClass
            = some (between (mergeReturns pre ++ [x]) (mergeReturns rest)) :=
          step?_between_eq_some_iff.2
            ⟨x, _, mergeReturns_of_kept (kept_of_not_isLineEnd hxend rest), hx, rfl⟩
        rw [hsource, htarget]
        exact .some (mergesApart_concat hsplit hxend)
      · have hnone : ∀ pre' rest', (rest'.head?.any inClass) = false →
            (between pre' rest').step? inClass = none := by
          intro pre' rest' hhead
          rw [Option.eq_none_iff_forall_ne_some]
          intro d hd
          obtain ⟨y, post, rfl, hy, -⟩ := step?_between_eq_some_iff.1 hd
          exact Bool.false_ne_true (hhead.symm.trans hy)
        have hhead : (x :: rest).head?.any inClass = false := Bool.eq_false_of_not_eq_true hx
        rw [hnone pre _ hhead,
          hnone _ _ ((any_head?_mergeReturns hclass.1 hclass.2 (x :: rest)).trans hhead)]
        exact .none

lemma MergesApart.skip? {word : List Char} (hword : ∀ c ∈ word, ¬ IsLineEnd c)
    (h : MergesApart text d e) :
    Option.Rel (MergesApart text) (d.skip? word) (e.skip? word) := by
  induction word generalizing d e with
  | nil => exact .some h
  | cons x word ih =>
      have hx := hword x List.mem_cons_self
      have hclass : ('\r' == x) = false ∧ ('\n' == x) = false :=
        ⟨beq_eq_false_iff_ne.2 fun heq => hx (.inr heq.symm),
          beq_eq_false_iff_ne.2 fun heq => hx (.inl heq.symm)⟩
      have hstep : Option.Rel (MergesApart text) (d.step? (· == x)) (e.step? (· == x)) :=
        h.step? hclass
      rw [Cursor.skip?, Cursor.skip?]
      generalize d.step? (· == x) = d', e.step? (· == x) = e' at hstep
      cases hstep with
      | none => exact .none
      | some hnext => exact ih (fun c hc => hword c (List.mem_cons_of_mem x hc)) hnext

/-- The stops of a run are the place itself and those behind its next step. -/
lemma stops_eq (inClass : Char → Bool) (c : Cursor) :
    stops inClass c.offset c.before c.rest
      = c :: ((c.step? inClass).map fun d => stops inClass d.offset d.before d.rest).getD [] := by
  obtain ⟨offset, before, rest⟩ := c
  cases rest with
  | nil => rfl
  | cons x rest => by_cases hx : inClass x = true <;> simp [stops, step?, hx]

lemma MergesApart.forall₂_stops (hclass : inClass '\r' = false ∧ inClass '\n' = false)
    (h : MergesApart text d e) :
    List.Forall₂ (MergesApart text) (stops inClass d.offset d.before d.rest)
      (stops inClass e.offset e.before e.rest) := by
  induction hn : d.remaining using Nat.strong_induction_on generalizing d e with
  | _ n ih =>
    subst hn
    have hstep := h.step? hclass
    rw [stops_eq inClass d, stops_eq inClass e]
    refine .cons h ?_
    cases hd : d.step? inClass with
    | none =>
        rw [hd] at hstep
        generalize e.step? inClass = e' at hstep
        cases hstep
        exact .nil
    | some d' =>
        rw [hd] at hstep
        generalize e.step? inClass = e' at hstep
        cases hstep with
        | some hnext => exact ih _ (remaining_of_step? hd) hnext rfl

/-- No end of a line is part of a word. -/
lemma MergesApart.atBoundary (h : MergesApart text d e) : d.atBoundary = e.atBoundary := by
  obtain ⟨pre, rest, -, -, rfl, rfl⟩ := h
  have hhead : (mergeReturns rest).head?.any isWord = rest.head?.any isWord :=
    any_head?_mergeReturns (by decide +kernel) (by decide +kernel) rest
  rw [Cursor.atBoundary, Cursor.atBoundary, rest_between, rest_between, hhead, between, between,
    getLast?_mergeReturns]

end Cursor

namespace Pattern

variable {p : Pattern} {d e : Cursor}

/-- The pattern takes no end of a line, and does not ask where a line or the text ends. -/
def IgnoresReturns : Pattern → Prop
  | empty | never | boundary => True
  | char inClass | greedy inClass | reluctant inClass =>
    inClass '\r' = false ∧ inClass '\n' = false
  | literal word => ∀ c ∈ word, ¬ IsLineEnd c
  | seq first second | alt first second => first.IgnoresReturns ∧ second.IgnoresReturns
  | lineEnd | textEnd => False

lemma forall₂_toList {α β : Type} {R : α → β → Prop} {a : Option α} {b : Option β}
    (h : Option.Rel R a b) : List.Forall₂ R a.toList b.toList := by
  cases h with
  | none => exact .nil
  | some h => exact .cons h .nil

lemma rel_head? {α β : Type} {R : α → β → Prop} {as : List α} {bs : List β}
    (h : List.Forall₂ R as bs) : Option.Rel R as.head? bs.head? := by
  cases h with
  | nil => exact .none
  | cons h _ => exact .some h

/-- **From corresponding places**, a pattern that ignores the ends of lines reaches corresponding
ones, in the same order of preference. -/
theorem IgnoresReturns.forall₂_ends (hp : p.IgnoresReturns) (h : d.MergesApart text e) :
    List.Forall₂ (Cursor.MergesApart text) (p.ends d) (p.ends e) := by
  induction p generalizing d e with
  | empty => exact .cons h .nil
  | never => exact .nil
  | char inClass => exact forall₂_toList (h.step? hp)
  | literal word => exact forall₂_toList (h.skip? hp)
  | seq first second ihFirst ihSecond =>
      exact List.rel_flatMap (ihFirst hp.1 h) fun _ _ hnext => ihSecond hp.2 hnext
  | alt first second ihFirst ihSecond =>
      exact List.rel_append (ihFirst hp.1 h) (ihSecond hp.2 h)
  | greedy inClass => exact List.rel_reverse (h.forall₂_stops hp)
  | reluctant inClass => exact h.forall₂_stops hp
  | boundary =>
      rw [ends, ends, h.atBoundary]
      split
      · exact .cons h .nil
      · exact .nil
  | lineEnd | textEnd => exact hp.elim

/-! ### Patterns that merge returns -/

/-- The matches of the pattern start with a character that ends no line, and at such a character
the preferred ends in a text and in the merged text correspond. -/
structure MergesReturns (p : Pattern) : Prop where
  starts {pre mid post : List Char} (h : p.Matches pre mid post) :
    ∃ x m, mid = x :: m ∧ ¬ IsLineEnd x
  rel_end? (pre rest : List Char) {x : Char} (hx : ¬ IsLineEnd x) :
    Option.Rel (Cursor.Merges (pre ++ x :: rest)) (p.end? (.between pre (x :: rest)))
      (p.end? (.between (keptBefore (x :: rest) pre) (mergeReturns (x :: rest))))

/-- A pattern that ignores the ends of lines merges returns, if it takes some character first. -/
lemma IgnoresReturns.mergesReturns (hp : p.IgnoresReturns)
    (hstarts : ∀ {pre mid post}, p.Matches pre mid post → ∃ x m, mid = x :: m ∧ ¬ IsLineEnd x) :
    p.MergesReturns where
  starts := hstarts
  rel_end? pre rest x hx := by
    have hsplit : ¬ SplitsReturn pre (x :: rest) := fun ⟨_, hhead⟩ =>
      hx (.inl (Option.some.inj hhead))
    have happart : (Cursor.between pre (x :: rest)).MergesApart (pre ++ x :: rest)
        (.between (keptBefore (x :: rest) pre) (mergeReturns (x :: rest))) :=
      ⟨pre, x :: rest, rfl, hsplit, rfl, by rw [keptBefore_eq_mergeReturns hsplit]⟩
    exact rel_head? ((hp.forall₂_ends happart).imp fun _ _ => Cursor.MergesApart.merges)

/-- A pattern that starts with a mark merges returns, if its preferred ends behind the mark
correspond. -/
lemma MergesReturns.of_mark (hne : mark ≠ []) (hmark : ∀ c ∈ mark, ¬ IsLineEnd c)
    (hstarts : ∀ {pre mid post}, p.Matches pre mid post → mark <+: mid)
    (hbehind : ∀ pre rest, Option.Rel (Cursor.Merges (pre ++ (mark ++ rest)))
      (p.end? (.between pre (mark ++ rest)))
      (p.end? (.between (keptBefore (mark ++ rest) pre) (mark ++ mergeReturns rest)))) :
    p.MergesReturns where
  starts h := by
    obtain ⟨m, rfl⟩ := hstarts h
    obtain ⟨x, mark, rfl⟩ := List.exists_cons_of_ne_nil hne
    exact ⟨x, mark ++ m, rfl, hmark x List.mem_cons_self⟩
  rel_end? pre rest x _ := by
    by_cases h : mark <+: x :: rest
    · obtain ⟨tail, htail⟩ := h
      rw [← htail, mergeReturns_append_eq, keptBefore_eq_self hmark]
      exact hbehind pre tail
    · have hnone : ∀ {pre rest}, ¬ mark <+: rest → p.end? (.between pre rest) = none := by
        intro pre rest hrest
        rw [Option.eq_none_iff_forall_ne_some]
        intro d hd
        obtain ⟨mid, post, rfl, hmatches, -⟩ := exists_matches_of_end? hd
        exact hrest ((hstarts hmatches).trans (List.prefix_append mid post))
      rw [hnone h, hnone ((prefix_mergeReturns_iff hmark).not.2 h)]
      exact .none

/-- Preferred ends that correspond, from what is matched. -/
lemma rel_end?_of_end? {pre' rest' : List Char}
    (hsource : p.end? (.between pre (mid ++ post)) = some (.between (pre ++ mid) post))
    (htarget : p.end? (.between pre' rest')
      = some (.between (keptBefore post (pre ++ mid)) (mergeReturns post))) :
    Option.Rel (Cursor.Merges (pre ++ (mid ++ post))) (p.end? (.between pre (mid ++ post)))
      (p.end? (.between pre' rest')) := by
  rw [hsource, htarget, ← List.append_assoc]
  exact .some (Cursor.merges_between (pre ++ mid) post)

end Pattern

/-! ### Sweeps of the merged text -/

/-- The stretches of a text and of the text with merged returns that correspond. -/
def ByteRange.Merges (text : List Char) (r s : ByteRange) : Prop :=
  ∃ pre mid post, text = pre ++ (mid ++ post) ∧ r = ⟨byteCount pre, byteCount (pre ++ mid)⟩ ∧
    s = ⟨byteCount (keptBefore (mid ++ post) pre), byteCount (keptBefore post (pre ++ mid))⟩

namespace Pattern

variable {p : Pattern} {found : List ByteRange}

/-- A sweep of a text and one of the merged text find corresponding stretches. -/
lemma MergesReturns.forall₂_occurrencesFrom (hp : p.MergesReturns) (h : p.Sweep pre rest found) :
    List.Forall₂ (ByteRange.Merges (pre ++ rest)) found
      (p.occurrencesFrom (.between (keptBefore rest pre) (mergeReturns rest))) := by
  induction h with
  | stop pre =>
      rw [mergeReturns, occurrencesFrom_nil]
      exact .nil
  | @skip pre rest x found hnone _ ih =>
      rw [← List.append_cons] at ih
      by_cases hx : Kept x rest
      · -- the sweep of the merged text passes over the same character
        rw [keptBefore_concat_of_kept hx] at ih
        rw [mergeReturns_of_kept hx, occurrencesFrom_of_none]
        · exact ih
        · intro mid post hne hrest hend
          rw [hrest] at hend
          obtain ⟨y, m, rfl, hy⟩ := hp.starts (matches_of_end? hend)
          obtain ⟨rfl, -⟩ := List.cons.inj hrest
          have hrel := hp.rel_end? pre rest hy
          rw [mergeReturns_of_kept hx, hrest, hend] at hrel
          generalize hd : p.end? (.between pre (x :: rest)) = d? at hrel
          cases hrel with
          | some hmerges =>
              obtain ⟨mid, post, htext, hmatches, rfl⟩ := exists_matches_of_end? hd
              obtain ⟨y, m, rfl, -⟩ := hp.starts hmatches
              exact hnone _ post (List.cons_ne_nil y m) htext hd
      · -- the sweep of the merged text is already behind the character
        rw [keptBefore_concat_of_not_kept hx] at ih
        rwa [mergeReturns_of_not_kept hx]
  | @hit pre mid post found hne hend _ ih =>
      obtain ⟨x, m, rfl, hx⟩ := hp.starts (matches_of_end? hend)
      have hkept : keptBefore post (x :: m) = x :: keptBefore post m :=
        keptBefore_cons_of_kept (kept_of_not_isLineEnd hx _)
      have hends : p.end? (.between (keptBefore (x :: m ++ post) pre)
          (keptBefore post (x :: m) ++ mergeReturns post))
            = some (.between (keptBefore (x :: m ++ post) pre ++ keptBefore post (x :: m))
                (mergeReturns post)) := by
        have hrel := hp.rel_end? pre (m ++ post) hx
        rw [← List.cons_append, hend, mergeReturns_append_eq] at hrel
        generalize p.end? _ = e? at hrel ⊢
        cases hrel with
        | some hmerges =>
            rw [← List.append_assoc] at hmerges
            rw [hmerges.eq_between, keptBefore_append]
      rw [mergeReturns_append_eq, occurrencesFrom_of_end? (by simp [hkept]) hends,
        ← keptBefore_append]
      refine .cons ⟨pre, x :: m, post, rfl, rfl, rfl⟩ ?_
      rwa [List.append_assoc] at ih

/-- **The matches in the merged text** are those in the text, with their edges moved. -/
theorem MergesReturns.forall₂_occurrences (hp : p.MergesReturns) (text : List Char) :
    List.Forall₂ (ByteRange.Merges text) (p.occurrences text)
      (p.occurrences (mergeReturns text)) :=
  hp.forall₂_occurrencesFrom (sweep_occurrences p text)

end Pattern

/-! ### Bytes of the merged text -/

/-- A place is before a character that stays if it is so in the merged text. -/
lemma byteCount_le_iff_keptBefore {i : Nat} (htext : a ++ b = pre ++ c :: post)
    (hc : Kept c post) (hi : i < c.utf8Size) :
    byteCount a ≤ byteCount pre + i ↔
      byteCount (keptBefore b a) ≤ byteCount (keptBefore (c :: post) pre) + i := by
  rcases List.append_eq_append_iff.1 htext with ⟨m, rfl, rfl⟩ | ⟨m, rfl, hrest⟩
  · simp only [keptBefore_append, byteCount_append]
    omega
  · cases m with
    | nil =>
        obtain rfl : c :: post = b := hrest
        simp
    | cons y m =>
        obtain ⟨rfl, hpost⟩ := List.cons.inj hrest
        obtain rfl : post = m ++ b := hpost
        rw [keptBefore_append, keptBefore_cons_of_kept hc, List.cons_append]
        simp only [byteCount_append, byteCount_cons]
        omega

/-- **A character that stays** is covered by a stretch if it is covered by the corresponding stretch
of the merged text. -/
theorem ByteRange.Merges.covers_iff {r s : ByteRange} {i : Nat}
    (h : r.Merges (pre ++ c :: post) s) (hc : Kept c post) (hi : i < c.utf8Size) :
    r.Covers (byteCount pre + i) ↔ s.Covers (byteCount (keptBefore (c :: post) pre) + i) := by
  obtain ⟨a, mid, b, htext, rfl, rfl⟩ := h
  have hstart := byteCount_le_iff_keptBefore htext.symm hc hi
  rw [← List.append_assoc] at htext
  have hstop := byteCount_le_iff_keptBefore htext.symm hc hi
  simp only [Covers, ← Nat.not_le, hstart, hstop]

end Folio

import Mathlib.Tactic
import Folio.Highlight.Pattern
import Folio.Proofs.Text.Bytes

/-!
What a pattern matches, whatever it prefers.

* `Pattern.Matches`: a pattern matches the stretch `mid` between `pre` and `post`; one clause for
  each form of a pattern. `Pattern.mem_ends_iff`: these are its ends at a cursor.
* `Pattern.end?_of_unique`, `Pattern.end?_seq`, `Pattern.end?_greedy`: what is preferred where there
  is no choice, or where nothing has to be given back.
-/

namespace Folio

open Text

namespace Cursor

/-- The cursor between two parts of a text. -/
def between (pre rest : List Char) : Cursor := ⟨byteCount pre, pre.getLast?, rest⟩

@[simp] lemma offset_between (pre rest : List Char) :
    (between pre rest).offset = byteCount pre := rfl

@[simp] lemma rest_between (pre rest : List Char) : (between pre rest).rest = rest := rfl

/-- A cursor in a text tells what comes after it. -/
lemma between_inj {pre mid mid' post post' : List Char}
    (h : between (pre ++ mid) post = between (pre ++ mid') post')
    (htext : mid ++ post = mid' ++ post') : mid = mid' ∧ post = post' := by
  have hpost : post = post' := congrArg Cursor.rest h
  subst hpost
  exact ⟨List.append_cancel_right htext, rfl⟩

lemma step?_between_eq_some_iff {inClass : Char → Bool} {pre rest : List Char} {d : Cursor} :
    (between pre rest).step? inClass = some d ↔
      ∃ x post, rest = x :: post ∧ inClass x = true ∧ d = between (pre ++ [x]) post := by
  cases rest with
  | nil => simp [step?]
  | cons x rest =>
      by_cases hx : inClass x = true
      · have hstep : (between pre (x :: rest)).step? inClass
            = some (between (pre ++ [x]) rest) := by
          simp [step?, between, hx]
        rw [hstep]
        constructor
        · intro h
          exact ⟨x, rest, rfl, hx, (Option.some.inj h).symm⟩
        · rintro ⟨y, post, hrest, -, rfl⟩
          obtain ⟨rfl, rfl⟩ := List.cons.inj hrest
          rfl
      · have hstep : (between pre (x :: rest)).step? inClass = none := by simp [step?, hx]
        rw [hstep]
        constructor
        · intro h
          exact absurd h (by simp)
        · rintro ⟨y, post, hrest, hy, -⟩
          obtain ⟨rfl, rfl⟩ := List.cons.inj hrest
          exact absurd hy hx

lemma skip?_between_eq_some_iff {word pre rest : List Char} {d : Cursor} :
    (between pre rest).skip? word = some d ↔
      ∃ post, rest = word ++ post ∧ d = between (pre ++ word) post := by
  induction word generalizing pre rest with
  | nil => simp [skip?, eq_comm]
  | cons x word ih =>
      rw [skip?, Option.bind_eq_bind, Option.bind_eq_some_iff]
      constructor
      · rintro ⟨e, he, hd⟩
        obtain ⟨c, post, rfl, hc, rfl⟩ := step?_between_eq_some_iff.1 he
        obtain ⟨post, rfl, rfl⟩ := ih.1 hd
        obtain rfl := beq_iff_eq.1 hc
        exact ⟨post, rfl, by rw [List.append_assoc]; rfl⟩
      · rintro ⟨post, rfl, rfl⟩
        refine ⟨between (pre ++ [x]) (word ++ post),
          step?_between_eq_some_iff.2 ⟨x, _, rfl, beq_self_eq_true x, rfl⟩, ih.2 ⟨post, rfl, ?_⟩⟩
        rw [List.append_assoc]
        rfl

/-- The stops of a run are the place itself and, if the next character is in the class, those of a
run behind it. -/
lemma stops_between_cons (inClass : Char → Bool) (pre : List Char) (x : Char) (rest : List Char) :
    stops inClass (byteCount pre) pre.getLast? (x :: rest) = between pre (x :: rest) ::
      if inClass x then stops inClass (byteCount (pre ++ [x])) (pre ++ [x]).getLast? rest
      else [] := by
  simp [stops, between]

/-- The stops of a run are the places that characters of the class lead to. -/
lemma mem_stops_between_iff {inClass : Char → Bool} {pre rest : List Char} {d : Cursor} :
    d ∈ stops inClass (byteCount pre) pre.getLast? rest ↔
      ∃ mid post, rest = mid ++ post ∧ (∀ x ∈ mid, inClass x = true) ∧
        d = between (pre ++ mid) post := by
  induction rest generalizing pre with
  | nil =>
      rw [stops, List.mem_singleton]
      constructor
      · rintro rfl
        exact ⟨[], [], rfl, by simp, by simp [between]⟩
      · rintro ⟨mid, post, hnil, -, rfl⟩
        obtain ⟨rfl, rfl⟩ := List.append_eq_nil_iff.1 hnil.symm
        simp [between]
  | cons x rest ih =>
      rw [stops_between_cons, List.mem_cons]
      constructor
      · rintro (rfl | h)
        · exact ⟨[], x :: rest, rfl, by simp, by simp [between]⟩
        · split at h
          · rename_i hx
            obtain ⟨mid, post, rfl, hmid, rfl⟩ := ih.1 h
            refine ⟨x :: mid, post, rfl, ?_, by rw [List.append_assoc]; rfl⟩
            simpa [hx] using hmid
          · simp at h
      · rintro ⟨mid, post, hrest, hmid, rfl⟩
        cases mid with
        | nil =>
            obtain rfl : x :: rest = post := hrest
            exact .inl (by rw [List.append_nil])
        | cons y mid =>
            obtain ⟨rfl, rfl⟩ := List.cons.inj hrest
            have hx : inClass x = true := hmid x List.mem_cons_self
            rw [if_pos hx]
            refine .inr (ih.2 ⟨mid, post, rfl, fun z hz => hmid z (List.mem_cons_of_mem x hz), ?_⟩)
            rw [List.append_assoc]
            rfl

end Cursor

/-! ### Matches -/

/-- Exactly one of the characters around a place is part of a word. -/
def AtEdge (pre post : List Char) : Prop :=
  pre.getLast?.any isWord ≠ post.head?.any isWord

namespace Pattern

/-- The pattern matches `mid` between `pre` and `post`. -/
def Matches : Pattern → List Char → List Char → List Char → Prop
  | empty, _, mid, _ => mid = []
  | never, _, _, _ => False
  | char inClass, _, mid, _ => ∃ x, mid = [x] ∧ inClass x = true
  | literal word, _, mid, _ => mid = word
  | seq first second, pre, mid, post => ∃ m₁ m₂, mid = m₁ ++ m₂ ∧
      first.Matches pre m₁ (m₂ ++ post) ∧ second.Matches (pre ++ m₁) m₂ post
  | alt first second, pre, mid, post => first.Matches pre mid post ∨ second.Matches pre mid post
  | greedy inClass, _, mid, _ => ∀ x ∈ mid, inClass x = true
  | reluctant inClass, _, mid, _ => ∀ x ∈ mid, inClass x = true
  | boundary, pre, mid, post => mid = [] ∧ AtEdge pre post
  | lineEnd, _, mid, post => mid = [] ∧ ∀ x ∈ post.head?, x = '\n'
  | textEnd, _, mid, post => mid = [] ∧ post = []

/-- A pattern that tests the place ends there if the test holds. -/
lemma mem_ite_singleton_iff {test : Bool} {P : List Char → Prop} {pre rest : List Char}
    (htest : test = true ↔ P rest) {d : Cursor} :
    d ∈ (if test then [Cursor.between pre rest] else []) ↔
      ∃ mid post, rest = mid ++ post ∧ (mid = [] ∧ P post) ∧ d = .between (pre ++ mid) post := by
  by_cases h : test = true
  · rw [if_pos h, List.mem_singleton]
    constructor
    · rintro rfl
      exact ⟨[], rest, rfl, ⟨rfl, htest.1 h⟩, by rw [List.append_nil]⟩
    · rintro ⟨mid, post, rfl, ⟨rfl, -⟩, rfl⟩
      simp
  · rw [if_neg h]
    constructor
    · intro hd
      exact absurd hd List.not_mem_nil
    · rintro ⟨mid, post, rfl, ⟨rfl, hP⟩, -⟩
      exact absurd (htest.2 hP) h

/-- **The ends of a pattern** at a cursor are those of the stretches that it matches there. -/
theorem mem_ends_iff {p : Pattern} {pre rest : List Char} {d : Cursor} :
    d ∈ p.ends (.between pre rest) ↔
      ∃ mid post, rest = mid ++ post ∧ p.Matches pre mid post ∧ d = .between (pre ++ mid) post := by
  induction p generalizing pre rest d with
  | empty =>
      rw [ends, List.mem_singleton]
      constructor
      · rintro rfl
        exact ⟨[], rest, rfl, rfl, by rw [List.append_nil]⟩
      · rintro ⟨mid, post, rfl, rfl, rfl⟩
        simp
  | never => simp [ends, Matches]
  | char inClass =>
      rw [ends, Option.mem_toList, Cursor.step?_between_eq_some_iff]
      constructor
      · rintro ⟨x, post, rfl, hx, rfl⟩
        exact ⟨[x], post, rfl, ⟨x, rfl, hx⟩, rfl⟩
      · rintro ⟨mid, post, rfl, ⟨x, rfl, hx⟩, rfl⟩
        exact ⟨x, post, rfl, hx, rfl⟩
  | literal word =>
      rw [ends, Option.mem_toList, Cursor.skip?_between_eq_some_iff]
      constructor
      · rintro ⟨post, rfl, rfl⟩
        exact ⟨word, post, rfl, rfl, rfl⟩
      · rintro ⟨mid, post, rfl, rfl, rfl⟩
        exact ⟨post, rfl, rfl⟩
  | seq first second ihFirst ihSecond =>
      rw [ends, List.mem_flatMap]
      constructor
      · rintro ⟨e, he, hd⟩
        obtain ⟨m₁, rest', rfl, h₁, rfl⟩ := ihFirst.1 he
        obtain ⟨m₂, post, rfl, h₂, rfl⟩ := ihSecond.1 hd
        exact ⟨m₁ ++ m₂, post, by rw [List.append_assoc], ⟨m₁, m₂, rfl, h₁, h₂⟩,
          by rw [List.append_assoc]⟩
      · rintro ⟨mid, post, rfl, ⟨m₁, m₂, rfl, h₁, h₂⟩, rfl⟩
        refine ⟨.between (pre ++ m₁) (m₂ ++ post),
          ihFirst.2 ⟨m₁, m₂ ++ post, by rw [List.append_assoc], h₁, rfl⟩, ?_⟩
        exact ihSecond.2 ⟨m₂, post, rfl, h₂, by rw [List.append_assoc]⟩
  | alt first second ihFirst ihSecond =>
      rw [ends, List.mem_append, ihFirst, ihSecond]
      constructor
      · rintro (⟨mid, post, rfl, h, rfl⟩ | ⟨mid, post, rfl, h, rfl⟩)
        · exact ⟨mid, post, rfl, .inl h, rfl⟩
        · exact ⟨mid, post, rfl, .inr h, rfl⟩
      · rintro ⟨mid, post, rfl, h | h, rfl⟩
        · exact .inl ⟨mid, post, rfl, h, rfl⟩
        · exact .inr ⟨mid, post, rfl, h, rfl⟩
  | greedy inClass =>
      rw [ends, List.mem_reverse]
      exact Cursor.mem_stops_between_iff
  | reluctant inClass => exact Cursor.mem_stops_between_iff
  | boundary =>
      rw [ends]
      exact mem_ite_singleton_iff (P := AtEdge pre) bne_iff_ne
  | lineEnd =>
      rw [ends]
      refine mem_ite_singleton_iff (P := fun post => ∀ x ∈ post.head?, x = '\n') ?_
      cases rest <;> simp [Cursor.between]
  | textEnd =>
      rw [ends]
      exact mem_ite_singleton_iff (P := fun post => post = []) List.isEmpty_iff

/-- What holds of each of several patterns holds of their alternatives, if those of two patterns
inherit it. -/
lemma anyOf_induction {P : Pattern → Prop} {patterns : List Pattern} (hnever : P never)
    (halt : ∀ p q, P p → P q → P (alt p q)) (h : ∀ p ∈ patterns, P p) : P (anyOf patterns) := by
  induction patterns with
  | nil => exact hnever
  | cons p patterns ih =>
      exact halt p _ (h p List.mem_cons_self) (ih fun q hq => h q (List.mem_cons_of_mem p hq))

lemma matches_anyOf_iff {patterns : List Pattern} {pre mid post : List Char} :
    (anyOf patterns).Matches pre mid post ↔ ∃ p ∈ patterns, p.Matches pre mid post := by
  induction patterns with
  | nil => simp [anyOf, Matches]
  | cons p patterns ih =>
      have hcons : anyOf (p :: patterns) = alt p (anyOf patterns) := rfl
      rw [hcons, Matches, ih]
      simp

/-- The preferred end is the end of a match. -/
lemma exists_matches_of_end? {p : Pattern} {pre rest : List Char} {d : Cursor}
    (h : p.end? (.between pre rest) = some d) :
    ∃ mid post, rest = mid ++ post ∧ p.Matches pre mid post ∧ d = .between (pre ++ mid) post :=
  mem_ends_iff.1 (List.mem_of_mem_head? h)

lemma exists_end?_of_matches {p : Pattern} {pre mid post : List Char}
    (h : p.Matches pre mid post) : ∃ d, p.end? (.between pre (mid ++ post)) = some d := by
  have hmem : Cursor.between (pre ++ mid) post ∈ p.ends (.between pre (mid ++ post)) :=
    mem_ends_iff.2 ⟨mid, post, rfl, h, rfl⟩
  exact ⟨_, List.head?_eq_some_head (List.ne_nil_of_mem hmem)⟩

/-- A stretch up to the preferred end is matched. -/
lemma matches_of_end? {p : Pattern} {pre mid post : List Char}
    (h : p.end? (.between pre (mid ++ post)) = some (.between (pre ++ mid) post)) :
    p.Matches pre mid post := by
  obtain ⟨mid', post', hrest, hmatches, hd⟩ := exists_matches_of_end? h
  obtain ⟨rfl, rfl⟩ := Cursor.between_inj hd hrest
  exact hmatches

/-! ### Preferred ends -/

/-- Where a pattern matches only one stretch, it prefers that one. -/
lemma end?_of_unique {p : Pattern} {pre mid post : List Char} (h : p.Matches pre mid post)
    (hunique : ∀ {mid' post'}, mid ++ post = mid' ++ post' → p.Matches pre mid' post' →
      mid' = mid) :
    p.end? (.between pre (mid ++ post)) = some (.between (pre ++ mid) post) := by
  obtain ⟨d, hd⟩ := exists_end?_of_matches h
  obtain ⟨mid', post', htext, hmatches, rfl⟩ := exists_matches_of_end? hd
  obtain rfl := hunique htext hmatches
  obtain rfl := List.append_cancel_left htext
  exact hd

/-- If the second pattern matches behind the preferred end of the first, its preferred end there is
that of both. -/
lemma end?_seq {first second : Pattern} {c d e : Cursor} (hfirst : first.end? c = some d)
    (hsecond : second.end? d = some e) : (seq first second).end? c = some e := by
  obtain ⟨ds, hds⟩ := List.head?_eq_some_iff.1 hfirst
  obtain ⟨es, hes⟩ := List.head?_eq_some_iff.1 hsecond
  rw [end?, ends, hds, List.flatMap_cons, hes]
  rfl

lemma end?_char {inClass : Char → Bool} {x : Char} (hx : inClass x = true) (pre rest : List Char) :
    (char inClass).end? (.between pre (x :: rest)) = some (.between (pre ++ [x]) rest) := by
  rw [end?, ends, Cursor.step?_between_eq_some_iff.2 ⟨x, rest, rfl, hx, rfl⟩]
  rfl

lemma end?_literal (pre word rest : List Char) :
    (literal word).end? (.between pre (word ++ rest)) = some (.between (pre ++ word) rest) := by
  rw [end?, ends, Cursor.skip?_between_eq_some_iff.2 ⟨rest, rfl, rfl⟩]
  rfl

lemma end?_boundary {pre rest : List Char} (h : AtEdge pre rest) :
    boundary.end? (.between pre rest) = some (.between pre rest) := by
  have hedge : (Cursor.between pre rest).atBoundary = true := bne_iff_ne.2 h
  rw [end?, ends, if_pos hedge]
  rfl

/-- The last stop of a run is behind all characters of the class. -/
lemma getLast?_stops (inClass : Char → Bool) (pre rest : List Char) :
    (Cursor.stops inClass (byteCount pre) pre.getLast? rest).getLast?
      = some (.between (pre ++ rest.takeWhile inClass) (rest.dropWhile inClass)) := by
  induction rest generalizing pre with
  | nil => simp [Cursor.stops, Cursor.between]
  | cons x rest ih =>
      by_cases hx : inClass x = true
      · rw [Cursor.stops_between_cons, if_pos hx, List.getLast?_cons, ih,
          List.takeWhile_cons_of_pos hx, List.dropWhile_cons_of_pos hx, ← List.append_cons]
        rfl
      · rw [Cursor.stops_between_cons, if_neg hx, List.takeWhile_cons_of_neg hx,
          List.dropWhile_cons_of_neg hx, List.append_nil]
        rfl

/-- A greedy run prefers to take all characters of its class. -/
lemma end?_greedy (inClass : Char → Bool) (pre rest : List Char) :
    (greedy inClass).end? (.between pre rest)
      = some (.between (pre ++ rest.takeWhile inClass) (rest.dropWhile inClass)) := by
  rw [end?, ends, List.head?_reverse]
  exact getLast?_stops inClass pre rest

end Pattern

end Folio

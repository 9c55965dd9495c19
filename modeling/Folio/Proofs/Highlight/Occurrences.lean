import Mathlib.Tactic
import Folio.Proofs.Highlight.Matches

/-!
The sweep of a pattern over a text. `Sweep` is a derivation of how it proceeds: it passes over a
character where the pattern has no match that is not empty, and takes the preferred match elsewhere.
The matches that are found are those of a sweep (`sweep_occurrences`), and facts about them are
proved by induction on it.
-/

namespace Folio

open Text

namespace Pattern

variable {p : Pattern} {pre mid post rest : List Char} {x : Char}

lemma occurrencesFrom_nil (p : Pattern) (pre : List Char) :
    p.occurrencesFrom (.between pre []) = [] := by
  rw [occurrencesFrom]
  rfl

/-- A preferred match that is not empty is found, and the sweep goes on behind it. -/
lemma occurrencesFrom_of_end? (hne : mid ≠ [])
    (hend : p.end? (.between pre (mid ++ post)) = some (.between (pre ++ mid) post)) :
    p.occurrencesFrom (.between pre (mid ++ post))
      = ⟨byteCount pre, byteCount (pre ++ mid)⟩ ::
          p.occurrencesFrom (.between (pre ++ mid) post) := by
  rw [occurrencesFrom]
  split
  · rename_i hnext
    cases mid with
    | nil => exact absurd rfl hne
    | cons x mid => simp [Cursor.next?, Cursor.step?] at hnext
  · split
    · rename_i hnone
      simp [hend] at hnone
    · rename_i e he
      obtain rfl := Option.some.inj (hend.symm.trans he)
      have hlt : (Cursor.between pre (mid ++ post)).offset
          < (Cursor.between (pre ++ mid) post).offset := by
        have hpos := byteCount_pos hne
        rw [Cursor.offset_between, Cursor.offset_between, byteCount_append]
        omega
      rw [dif_pos hlt]
      rfl

/-- Where no match is preferred, or an empty one, the sweep passes over one character. -/
lemma occurrencesFrom_of_none
    (hnone : ∀ mid post, mid ≠ [] → x :: rest = mid ++ post →
      p.end? (.between pre (x :: rest)) ≠ some (.between (pre ++ mid) post)) :
    p.occurrencesFrom (.between pre (x :: rest))
      = p.occurrencesFrom (.between (pre ++ [x]) rest) := by
  rw [occurrencesFrom]
  split
  · rename_i hnext
    simp [Cursor.next?, Cursor.step?] at hnext
  · rename_i d hnext
    obtain ⟨y, post, hrest, -, rfl⟩ := Cursor.step?_between_eq_some_iff.1 hnext
    obtain ⟨rfl, rfl⟩ := List.cons.inj hrest
    split
    · rfl
    · rename_i e he
      obtain ⟨mid, post, hrest, -, rfl⟩ := exists_matches_of_end? he
      have hmid : mid = [] := by
        by_contra hne
        exact hnone mid post hne hrest he
      subst hmid
      simp

/-- A sweep for the matches of a pattern, from between `pre` and the rest of a text on, finds the
given stretches. -/
inductive Sweep (p : Pattern) : List Char → List Char → List ByteRange → Prop where
  | stop (pre : List Char) : Sweep p pre [] []
  /-- No match here, but perhaps an empty one. -/
  | skip {pre rest : List Char} {x : Char} {found : List ByteRange}
      (none : ∀ mid post, mid ≠ [] → x :: rest = mid ++ post →
        p.end? (.between pre (x :: rest)) ≠ some (.between (pre ++ mid) post))
      (next : Sweep p (pre ++ [x]) rest found) : Sweep p pre (x :: rest) found
  /-- The preferred match. -/
  | hit {pre mid post : List Char} {found : List ByteRange} (ne_nil : mid ≠ [])
      (preferred : p.end? (.between pre (mid ++ post)) = some (.between (pre ++ mid) post))
      (next : Sweep p (pre ++ mid) post found) :
      Sweep p pre (mid ++ post) (⟨byteCount pre, byteCount (pre ++ mid)⟩ :: found)

lemma sweep_occurrencesFrom (p : Pattern) (pre rest : List Char) :
    p.Sweep pre rest (p.occurrencesFrom (.between pre rest)) := by
  -- the rest gets shorter, whichever way the sweep goes on
  induction hn : rest.length using Nat.strong_induction_on generalizing pre rest with
  | _ n ih =>
    subst hn
    cases rest with
    | nil =>
        rw [occurrencesFrom_nil]
        exact .stop pre
    | cons x rest =>
        by_cases hhit : ∃ mid post, mid ≠ [] ∧ x :: rest = mid ++ post ∧
            p.end? (.between pre (x :: rest)) = some (.between (pre ++ mid) post)
        · obtain ⟨mid, post, hne, hrest, hend⟩ := hhit
          have hpos := List.length_pos_of_ne_nil hne
          have hshort : post.length < (x :: rest).length := by
            rw [hrest, List.length_append]
            omega
          have hnext := ih post.length hshort (pre ++ mid) post rfl
          rw [hrest] at hend ⊢
          rw [occurrencesFrom_of_end? hne hend]
          exact .hit hne hend hnext
        · have hnone : ∀ mid post, mid ≠ [] → x :: rest = mid ++ post →
              p.end? (.between pre (x :: rest)) ≠ some (.between (pre ++ mid) post) :=
            fun mid post hne hrest hend => hhit ⟨mid, post, hne, hrest, hend⟩
          rw [occurrencesFrom_of_none hnone]
          exact .skip hnone (ih rest.length (by simp) (pre ++ [x]) rest rfl)

lemma Sweep.eq_occurrencesFrom {found : List ByteRange} (h : p.Sweep pre rest found) :
    found = p.occurrencesFrom (.between pre rest) := by
  induction h with
  | stop pre => rw [occurrencesFrom_nil]
  | skip hnone _ ih => rw [occurrencesFrom_of_none hnone, ih]
  | hit hne hend _ ih => rw [occurrencesFrom_of_end? hne hend, ih]

/-- The matches in a text are found by a sweep from its start. -/
theorem sweep_occurrences (p : Pattern) (text : List Char) : p.Sweep [] text (p.occurrences text) :=
  p.sweep_occurrencesFrom [] text

/-- A sweep finds preferred matches that are not empty. -/
lemma Sweep.exists_of_mem {found : List ByteRange} (h : p.Sweep pre rest found) {r : ByteRange}
    (hr : r ∈ found) :
    ∃ a mid post, pre ++ rest = a ++ (mid ++ post) ∧ mid ≠ [] ∧
      p.end? (.between a (mid ++ post)) = some (.between (a ++ mid) post) ∧
      r = ⟨byteCount a, byteCount (a ++ mid)⟩ := by
  induction h with
  | stop => exact absurd hr List.not_mem_nil
  | skip _ _ ih =>
      obtain ⟨a, mid, post, htext, hfound⟩ := ih hr
      exact ⟨a, mid, post, by rw [← htext, List.append_cons], hfound⟩
  | @hit pre mid post _ hne hend _ ih =>
      rcases List.mem_cons.1 hr with rfl | hr
      · exact ⟨pre, mid, post, rfl, hne, hend, rfl⟩
      · obtain ⟨a, mid', post', htext, hfound⟩ := ih hr
        exact ⟨a, mid', post', by rw [← htext, List.append_assoc], hfound⟩

lemma Sweep.le_start {found : List ByteRange} (h : p.Sweep pre rest found) {r : ByteRange}
    (hr : r ∈ found) : byteCount pre ≤ r.start := by
  induction h with
  | stop => exact absurd hr List.not_mem_nil
  | @skip pre rest x found _ _ ih =>
      have hle := ih hr
      rw [byteCount_append] at hle
      omega
  | @hit pre mid post found _ _ _ ih =>
      rcases List.mem_cons.1 hr with rfl | hr
      · exact le_rfl
      · have hle := ih hr
        rw [byteCount_append] at hle
        omega

/-- A sweep finds the preferred match at a place, unless it has found one that goes on beyond
that place. -/
lemma Sweep.mem_of_end? {found : List ByteRange} (h : p.Sweep pre rest found) {gap : List Char}
    (hrest : rest = gap ++ (mid ++ post)) (hne : mid ≠ [])
    (hend : p.end? (.between (pre ++ gap) (mid ++ post)) = some (.between (pre ++ gap ++ mid) post))
    (hfree : ∀ r ∈ found, ¬ (r.start < byteCount (pre ++ gap) ∧ byteCount (pre ++ gap) < r.stop)) :
    ⟨byteCount (pre ++ gap), byteCount (pre ++ gap ++ mid)⟩ ∈ found := by
  induction h generalizing gap with
  | stop =>
      obtain ⟨-, hnil⟩ := List.append_eq_nil_iff.1 hrest.symm
      exact absurd (List.append_eq_nil_iff.1 hnil).1 hne
  | @skip pre rest x found hnone _ ih =>
      cases gap with
      | nil =>
          rw [List.append_nil] at hend
          exact absurd (hrest ▸ hend) (hnone mid post hne hrest)
      | cons y gap =>
          obtain ⟨rfl, hgap⟩ := List.cons.inj hrest
          rw [List.append_cons] at hend hfree ⊢
          exact ih hgap hend hfree
  | @hit pre mid₀ post₀ found hne₀ hend₀ _ ih =>
      cases gap with
      | nil =>
          rw [List.append_nil] at hend ⊢
          rw [← List.nil_append (mid ++ post), ← hrest] at hend
          obtain ⟨rfl, -⟩ := Cursor.between_inj (Option.some.inj (hend₀.symm.trans hend)) hrest
          exact List.mem_cons_self
      | cons y gap =>
          have hle : byteCount mid₀ ≤ byteCount (y :: gap) := by
            have hfirst := hfree _ List.mem_cons_self
            have hpos := byteCount_pos (List.cons_ne_nil y gap)
            simp only [byteCount_append] at hfirst
            omega
          obtain ⟨gap', hgap, hpost⟩ := append_eq_append_of_le hrest hle
          rw [hgap, ← List.append_assoc] at hend hfree ⊢
          exact List.mem_cons_of_mem _
            (ih hpost hend fun r hr => hfree r (List.mem_cons_of_mem _ hr))

/-! ### Matches in a text -/

variable {text : List Char}

/-- Every match that is found is a stretch of the text, not empty, and the preferred match at its
place. -/
theorem exists_of_mem_occurrences {r : ByteRange} (h : r ∈ p.occurrences text) :
    ∃ pre mid post, text = pre ++ (mid ++ post) ∧ mid ≠ [] ∧
      p.end? (.between pre (mid ++ post)) = some (.between (pre ++ mid) post) ∧
      r = ⟨byteCount pre, byteCount (pre ++ mid)⟩ :=
  (sweep_occurrences p text).exists_of_mem h

/-- The preferred match at a place of the text is found, unless one goes on beyond that place. -/
theorem mem_occurrences_of_end? (htext : text = pre ++ (mid ++ post)) (hne : mid ≠ [])
    (hend : p.end? (.between pre (mid ++ post)) = some (.between (pre ++ mid) post))
    (hfree : ∀ r ∈ p.occurrences text, ¬ (r.start < byteCount pre ∧ byteCount pre < r.stop)) :
    ⟨byteCount pre, byteCount (pre ++ mid)⟩ ∈ p.occurrences text :=
  (sweep_occurrences p text).mem_of_end? htext hne hend hfree

lemma isCut_of_mem_occurrences {r : ByteRange} (h : r ∈ p.occurrences text) :
    IsCut text r.start ∧ IsCut text r.stop ∧ r.start < r.stop := by
  obtain ⟨pre, mid, post, rfl, hne, -, rfl⟩ := exists_of_mem_occurrences h
  have hpos := byteCount_pos hne
  refine ⟨⟨pre, mid ++ post, rfl, rfl⟩, ⟨pre ++ mid, post, by rw [List.append_assoc], rfl⟩, ?_⟩
  simp only [byteCount_append]
  omega

lemma occurrences_congr {q : Pattern}
    (h : ∀ pre rest, p.end? (.between pre rest) = q.end? (.between pre rest)) (text : List Char) :
    p.occurrences text = q.occurrences text := by
  have hsweep : ∀ {pre rest found}, p.Sweep pre rest found → q.Sweep pre rest found := by
    intro pre rest found hp
    induction hp with
    | stop pre => exact .stop pre
    | skip hnone _ ih => exact .skip (fun mid post hne hrest => h _ _ ▸ hnone mid post hne hrest) ih
    | hit hne hend _ ih => exact .hit hne ((h _ _).symm.trans hend) ih
  exact (hsweep (sweep_occurrences p text)).eq_occurrencesFrom

end Pattern

end Folio

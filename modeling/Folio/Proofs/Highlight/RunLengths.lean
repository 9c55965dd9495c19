import Mathlib.Tactic
import Folio.Proofs.Highlight.Paint

/-!
Spans as the run lengths of a paint: painting the spans of a paint onto a blank one gives it back,
and they are the only canonical list that does (`Paint.canonical_iff_eq_spans`). The lists that
tell the categories of all bytes are the canonical ones (`describes_of_canonical`).
-/

namespace Folio

namespace Paint

/-! ### Painting spans -/

/-- Nothing is painted yet. -/
def blank (size : Nat) : Paint := Array.replicate size none

@[simp] lemma size_blank (size : Nat) : (blank size).size = size := Array.size_replicate

@[simp] lemma categoryAt_blank (size i : Nat) : (blank size).categoryAt i = none :=
  categoryAt_replicate size i

/-- Paints a span, which has to lie on the paint. -/
def paintSpan? (paint : Paint) (s : StyleSpan) : Option Paint :=
  if s.start ≤ s.stop ∧ s.stop ≤ paint.size then
    some (cover s.category paint ⟨s.start, s.stop⟩)
  else none

/-- Paints spans from the left to the right, one over the other. -/
def paintSpans? (paint : Paint) (spans : List StyleSpan) : Option Paint :=
  spans.foldlM paintSpan? paint

variable {paint painted : Paint} {s : StyleSpan} {spans : List StyleSpan}

lemma paintSpan?_eq_some_iff : paint.paintSpan? s = some painted ↔
    (s.start ≤ s.stop ∧ s.stop ≤ paint.size) ∧
      cover s.category paint ⟨s.start, s.stop⟩ = painted := by
  rw [paintSpan?]
  split_ifs with h <;> simp [h]

lemma paintSpans?_cons_eq_some_iff : paint.paintSpans? (s :: spans) = some painted ↔
    ∃ next, paint.paintSpan? s = some next ∧ next.paintSpans? spans = some painted :=
  Option.bind_eq_some_iff

/-- **Spans that lie on the paint** can be painted, and no others. Painting keeps the size. -/
lemma exists_paintSpans?_iff : (∃ painted, paint.paintSpans? spans = some painted) ↔
    ∀ s ∈ spans, s.start ≤ s.stop ∧ s.stop ≤ paint.size := by
  induction spans generalizing paint with
  | nil => exact iff_of_true ⟨paint, rfl⟩ (by simp)
  | cons s spans ih =>
      simp only [paintSpans?_cons_eq_some_iff, paintSpan?_eq_some_iff, List.forall_mem_cons]
      constructor
      · rintro ⟨painted, next, ⟨hs, rfl⟩, hpainted⟩
        have hrest := ih.1 ⟨painted, hpainted⟩
        rw [size_cover] at hrest
        exact ⟨hs, hrest⟩
      · rintro ⟨hs, hrest⟩
        obtain ⟨painted, hpainted⟩ : ∃ painted,
            (cover s.category paint ⟨s.start, s.stop⟩).paintSpans? spans = some painted :=
          ih.2 (by rwa [size_cover])
        exact ⟨painted, _, ⟨hs, rfl⟩, hpainted⟩

lemma size_paintSpans (h : paint.paintSpans? spans = some painted) : painted.size = paint.size := by
  induction spans generalizing paint with
  | nil => exact congrArg Array.size (Option.some.inj h).symm
  | cons s spans ih =>
      obtain ⟨next, hnext, hrest⟩ := paintSpans?_cons_eq_some_iff.1 h
      obtain ⟨-, rfl⟩ := paintSpan?_eq_some_iff.1 hnext
      rw [ih hrest, size_cover]

/-- **Of spans that do not overlap**, each gives its category to its own bytes. All other bytes keep
theirs. -/
lemma categoryAt_paintSpans
    (hdisjoint : spans.Pairwise fun s t => ∀ i, ¬ (s.Covers i ∧ t.Covers i))
    (h : paint.paintSpans? spans = some painted) (i : Nat) (category : Category) :
    painted.categoryAt i = some category ↔
      (∃ s ∈ spans, s.Covers i ∧ s.category = category) ∨
      (∀ s ∈ spans, ¬ s.Covers i) ∧ paint.categoryAt i = some category := by
  induction spans generalizing paint with
  | nil =>
      obtain rfl := Option.some.inj h
      simp
  | cons s spans ih =>
      obtain ⟨next, hnext, hrest⟩ := paintSpans?_cons_eq_some_iff.1 h
      obtain ⟨⟨hle, hsize⟩, rfl⟩ := paintSpan?_eq_some_iff.1 hnext
      obtain ⟨hs, hpairwise⟩ := List.pairwise_cons.1 hdisjoint
      have hcover : (cover s.category paint ⟨s.start, s.stop⟩).categoryAt i
          = if s.Covers i then some s.category else paint.categoryAt i := by
        rw [categoryAt_cover]
        congr 1
        exact propext ⟨And.left, fun hi => ⟨hi, hi.2.trans_le hsize⟩⟩
      rw [ih hpairwise hrest, hcover]
      by_cases hi : s.Covers i
      · -- no later span is on this byte
        have hlater : ∀ t ∈ spans, ¬ t.Covers i := fun t ht hti => hs t ht i ⟨hi, hti⟩
        simp only [if_pos hi, Option.some.injEq, List.exists_mem_cons_iff, List.forall_mem_cons]
        constructor
        · rintro (⟨t, ht, hti, -⟩ | ⟨-, hcategory⟩)
          · exact absurd hti (hlater t ht)
          · exact .inl (.inl ⟨hi, hcategory⟩)
        · rintro ((⟨-, hcategory⟩ | ⟨t, ht, hti, -⟩) | ⟨⟨hno, -⟩, -⟩)
          · exact .inr ⟨hlater, hcategory⟩
          · exact absurd hti (hlater t ht)
          · exact absurd hi hno
      · simp [hi]

lemma ext_categoryAt {paint other : Paint} (hsize : paint.size = other.size)
    (h : ∀ i, paint.categoryAt i = other.categoryAt i) : paint = other := by
  refine Array.ext hsize fun i hi hi' => ?_
  have hbyte := h i
  rwa [categoryAt, categoryAt, Array.getElem?_eq_getElem hi, Array.getElem?_eq_getElem hi'] at hbyte

end Paint

/-! ### Canonical lists -/

/-- The spans stand in order, none of them is empty, no two of them overlap, and no two that touch
have one category. -/
structure Canonical (spans : List StyleSpan) : Prop where
  sorted : spans.Pairwise fun s t => s.start ≤ t.start
  not_empty : ∀ s ∈ spans, s.isEmpty = false
  disjoint : spans.Pairwise fun s t => ∀ i, ¬ (s.Covers i ∧ t.Covers i)
  merged : spans.Pairwise fun s t =>
    s.stop = t.start ∨ t.stop = s.start → s.category ≠ t.category

variable {spans : List StyleSpan} {f : Nat → Option Category}

/-- **The lists that tell categories** are canonical. -/
lemma Describes.canonical (h : Describes spans f) : Canonical spans where
  sorted := h.pairwise.imp_of_mem fun {s t} hs _ hst =>
    (h.start_lt_stop s hs).le.trans hst.1
  not_empty s hs := beq_false_of_ne (h.start_lt_stop s hs).ne
  disjoint := h.pairwise.imp fun {s t} hst i ⟨hsi, hti⟩ =>
    (hsi.2.trans_le hst.1).not_ge hti.1
  merged := h.pairwise.imp_of_mem fun {s t} hs ht hst htouch => by
    have hs := h.start_lt_stop s hs
    have ht := h.start_lt_stop t ht
    have hle := hst.1
    exact hst.2 (by omega)

/-- **A canonical list** whose spans lie on a blank paint tells the categories that they give it. -/
lemma describes_of_canonical {size : Nat} {painted : Paint} (h : Canonical spans)
    (hpaint : (Paint.blank size).paintSpans? spans = some painted) :
    Describes spans painted.categoryAt := by
  have hlt : ∀ s ∈ spans, s.start < s.stop := fun s hs =>
    lt_of_le_of_ne (Paint.exists_paintSpans?_iff.1 ⟨painted, hpaint⟩ s hs).1
      (ne_of_beq_false (h.not_empty s hs))
  refine ⟨hlt, ?_, fun i category => ?_⟩
  · refine (h.sorted.and (h.disjoint.and h.merged)).imp_of_mem fun {s t} hs ht hst => ?_
    obtain ⟨hsorted, hdisjoint, hmerged⟩ := hst
    refine ⟨?_, fun htouch => hmerged (.inl htouch)⟩
    -- otherwise both are on the first byte of the second one
    by_contra hoverlap
    exact hdisjoint t.start ⟨⟨hsorted, by omega⟩, ⟨le_refl _, hlt t ht⟩⟩
  · rw [Paint.categoryAt_paintSpans h.disjoint hpaint]
    simp

namespace Paint

lemma paintSpans?_spans (paint : Paint) :
    (blank paint.size).paintSpans? paint.spans = some paint := by
  have h := describes_spans paint
  have hinside : ∀ s ∈ paint.spans, s.start ≤ s.stop ∧ s.stop ≤ (blank paint.size).size := by
    intro s hs
    rw [size_blank]
    exact ⟨(h.start_lt_stop s hs).le, h.stop_le (fun _ => categoryAt_eq_none_of_le) hs⟩
  obtain ⟨painted, hpainted⟩ := exists_paintSpans?_iff.2 hinside
  rw [hpainted, Option.some.injEq]
  refine ext_categoryAt ((size_paintSpans hpainted).trans (size_blank _)) fun i => ?_
  refine Option.ext fun category => ?_
  rw [categoryAt_paintSpans h.canonical.disjoint hpainted, ← h.tags i category]
  simp

/-- **Spans are run lengths.** Painting the spans of a paint onto a blank one of its size gives the
paint back. They stand in order, none of them is empty, no two of them overlap, and no two that
touch have one category; and no other list of spans does all of this. -/
theorem canonical_iff_eq_spans (paint : Paint) (spans : List StyleSpan) :
    Canonical spans ∧ (blank paint.size).paintSpans? spans = some paint ↔ spans = paint.spans := by
  constructor
  · rintro ⟨hcanonical, hpaint⟩
    exact (describes_of_canonical hcanonical hpaint).unique (describes_spans paint)
  · rintro rfl
    exact ⟨(describes_spans paint).canonical, paintSpans?_spans paint⟩

end Paint

end Folio

import Mathlib.Tactic
import Folio.Highlight.Span

/-!
Paint and the spans that are collected from it.

* `Paint.categoryAt`: the category of a byte, and how covering a stretch changes it.
* `Describes`: a list of spans tells the category of every byte, in order, without empty spans and
  with no two spans where one would do. `Describes.unique`: there is only one such list.
* `Paint.Collected.Tells`: the invariant of the collection, so that `Paint.describes_spans`: the
  spans that are collected from a paint tell the categories of its bytes.
-/

namespace Folio

/-- The offset lies in the stretch. -/
def ByteRange.Covers (r : ByteRange) (i : Nat) : Prop := r.start ≤ i ∧ i < r.stop

instance (r : ByteRange) (i : Nat) : Decidable (r.Covers i) :=
  inferInstanceAs (Decidable (r.start ≤ i ∧ i < r.stop))

/-- The offset lies in the span. -/
def StyleSpan.Covers (s : StyleSpan) (i : Nat) : Prop := s.start ≤ i ∧ i < s.stop

instance (s : StyleSpan) (i : Nat) : Decidable (s.Covers i) :=
  inferInstanceAs (Decidable (s.start ≤ i ∧ i < s.stop))

/-- The first span ends where the second one starts, or before; if they touch, their categories
differ. -/
def StyleSpan.Precedes (s t : StyleSpan) : Prop :=
  s.stop ≤ t.start ∧ (s.stop = t.start → s.category ≠ t.category)

/-! ### Covering -/

namespace Paint

/-- The category of a byte, if it has one. -/
def categoryAt (paint : Paint) (i : Nat) : Option Category := paint[i]?.join

@[simp] lemma categoryAt_replicate (n i : Nat) :
    categoryAt (Array.replicate n none) i = none := by
  rw [categoryAt, Array.getElem?_replicate]
  split <;> rfl

lemma categoryAt_eq_none_of_le {paint : Paint} {i : Nat} (h : paint.size ≤ i) :
    paint.categoryAt i = none := by
  rw [categoryAt, Array.getElem?_eq_none h]
  rfl

@[simp] lemma size_fill (category : Category) (offset n : Nat) (paint : Paint) :
    (fill category offset n paint).size = paint.size := by
  induction n generalizing offset paint with
  | zero => rfl
  | succ n ih => rw [fill, ih, Array.size_setIfInBounds]

lemma categoryAt_fill (category : Category) (offset n : Nat) (paint : Paint) (i : Nat) :
    (fill category offset n paint).categoryAt i
      = if offset ≤ i ∧ i < offset + n ∧ i < paint.size then some category
        else paint.categoryAt i := by
  induction n generalizing offset paint with
  | zero =>
      have hno : ¬ (offset ≤ i ∧ i < offset + 0 ∧ i < paint.size) := by omega
      rw [fill, if_neg hno]
  | succ n ih =>
      rw [fill, ih, Array.size_setIfInBounds]
      by_cases hi : offset = i
      · subst hi
        have hno : ¬ (offset + 1 ≤ offset ∧ offset < offset + 1 + n ∧ offset < paint.size) := by
          omega
        rw [if_neg hno, categoryAt, Array.getElem?_setIfInBounds_self]
        by_cases hsize : offset < paint.size
        · rw [if_pos hsize, if_pos (by omega)]
          rfl
        · rw [if_neg hsize, if_neg (by omega), categoryAt_eq_none_of_le (by omega)]
          rfl
      · have hsame : categoryAt (paint.setIfInBounds offset (some category)) i
            = paint.categoryAt i := by
          rw [categoryAt, Array.getElem?_setIfInBounds_ne hi, categoryAt]
        rw [hsame]
        congr 1
        exact propext (by omega)

@[simp] lemma size_cover (category : Category) (paint : Paint) (r : ByteRange) :
    (cover category paint r).size = paint.size := size_fill _ _ _ _

@[simp] lemma size_foldl_cover (category : Category) (ranges : List ByteRange) (paint : Paint) :
    (ranges.foldl (cover category) paint).size = paint.size := by
  induction ranges generalizing paint with
  | nil => rfl
  | cons r ranges ih => rw [List.foldl_cons, ih, size_cover]

lemma categoryAt_cover (category : Category) (paint : Paint) (r : ByteRange) (i : Nat) :
    (cover category paint r).categoryAt i
      = if r.Covers i ∧ i < paint.size then some category else paint.categoryAt i := by
  rw [cover, categoryAt_fill]
  congr 1
  exact propext (by rw [ByteRange.Covers]; omega)

/-- Covering stretches changes the categories of their bytes. -/
lemma categoryAt_foldl_cover (category : Category) (ranges : List ByteRange) (paint : Paint)
    {i : Nat} (hi : i < paint.size) :
    (ranges.foldl (cover category) paint).categoryAt i
      = if ∃ r ∈ ranges, r.Covers i then some category else paint.categoryAt i := by
  induction ranges generalizing paint with
  | nil => simp
  | cons r ranges ih =>
      rw [List.foldl_cons, ih _ (by rwa [size_cover]), categoryAt_cover]
      by_cases hr : r.Covers i
      · simp [hr, hi]
      · simp [hr]

end Paint

/-! ### Lists of spans -/

/-- The list of spans tells the category `f i` of every offset `i`: each span holds some offsets,
all of one category, the spans stand in order, and two that touch have different categories. -/
structure Describes (spans : List StyleSpan) (f : Nat → Option Category) : Prop where
  start_lt_stop : ∀ s ∈ spans, s.start < s.stop
  pairwise : spans.Pairwise StyleSpan.Precedes
  tags : ∀ i category, (∃ s ∈ spans, s.Covers i ∧ s.category = category) ↔ f i = some category

namespace Describes

variable {spans : List StyleSpan} {f : Nat → Option Category} {s t : StyleSpan}

lemma eq_some (h : Describes spans f) (hs : s ∈ spans) {i : Nat} (hi : s.Covers i) :
    f i = some s.category :=
  (h.tags i s.category).1 ⟨s, hs, hi, rfl⟩

lemma eq_or_precedes (h : Describes spans f) (hs : s ∈ spans) (ht : t ∈ spans) :
    s = t ∨ s.Precedes t ∨ t.Precedes s :=
  List.Pairwise.forall_of_forall_of_flip (R := fun a b => a = b ∨ a.Precedes b ∨ b.Precedes a)
    (fun _ _ => .inl rfl) (h.pairwise.imp fun hab => .inr (.inl hab))
    (h.pairwise.imp fun hab => .inr (.inr hab)) hs ht

/-- The offset before a span has another category, or none. -/
lemma ne_some_of_succ_eq_start (h : Describes spans f) (hs : s ∈ spans) {i : Nat}
    (hi : i + 1 = s.start) : f i ≠ some s.category := by
  intro hf
  obtain ⟨t, ht, ⟨hti, hit⟩, hcategory⟩ := (h.tags i s.category).2 hf
  rcases h.eq_or_precedes ht hs with rfl | ⟨hle, hne⟩ | ⟨hle, -⟩
  · omega
  · exact hne (by omega) hcategory
  · have hlt := h.start_lt_stop s hs
    omega

/-- The offset behind a span has another category, or none. -/
lemma ne_some_stop (h : Describes spans f) (hs : s ∈ spans) : f s.stop ≠ some s.category := by
  intro hf
  obtain ⟨t, ht, ⟨hti, hit⟩, hcategory⟩ := (h.tags s.stop s.category).2 hf
  rcases h.eq_or_precedes hs ht with rfl | ⟨hle, hne⟩ | ⟨hle, -⟩
  · omega
  · exact hne (by omega) hcategory.symm
  · have hlt := h.start_lt_stop s hs
    omega

/-- Spans stop where no offset has a category any more. -/
lemma stop_le (h : Describes spans f) {size : Nat} (hfree : ∀ i, size ≤ i → f i = none)
    (hs : s ∈ spans) : s.stop ≤ size := by
  have hlt := h.start_lt_stop s hs
  have hlast := h.eq_some hs (i := s.stop - 1) ⟨by omega, by omega⟩
  by_contra hle
  rw [hfree _ (by omega)] at hlast
  exact Option.some_ne_none _ hlast.symm

/-- **The spans of a list** are the maximal runs of offsets of one category. -/
theorem mem_iff (h : Describes spans f) :
    s ∈ spans ↔ s.start < s.stop ∧ (∀ i, s.Covers i → f i = some s.category) ∧
      (∀ i, i + 1 = s.start → f i ≠ some s.category) ∧ f s.stop ≠ some s.category := by
  constructor
  · intro hs
    exact ⟨h.start_lt_stop s hs, fun i => h.eq_some hs, fun i => h.ne_some_of_succ_eq_start hs,
      h.ne_some_stop hs⟩
  · rintro ⟨hlt, hrun, hbefore, hbehind⟩
    obtain ⟨t, ht, ⟨hts, hst⟩, hcategory⟩ :=
      (h.tags s.start s.category).2 (hrun s.start ⟨le_refl _, hlt⟩)
    have hstart : t.start = s.start := by
      by_contra hne
      have hprev : s.start - 1 + 1 = s.start := by omega
      refine hbefore _ hprev (hcategory ▸ h.eq_some ht ⟨?_, ?_⟩)
      · omega
      · omega
    have hstop : t.stop = s.stop := by
      by_contra hne
      rcases Nat.lt_or_gt_of_ne hne with hless | hmore
      · exact h.ne_some_stop ht (hcategory ▸ hrun t.stop ⟨by omega, hless⟩)
      · exact hbehind (hcategory ▸ h.eq_some ht ⟨by omega, hmore⟩)
    have heq : t = s := by
      obtain ⟨ts, te, tc⟩ := t
      simp_all
    exact heq ▸ ht

/-- The spans of one category tell where that category is. -/
lemma filter (h : Describes spans f) (c : Category) :
    Describes (spans.filter (·.category = c)) fun i => if f i = some c then some c else none where
  start_lt_stop s hs := h.start_lt_stop s (List.mem_filter.1 hs).1
  pairwise := h.pairwise.sublist List.filter_sublist
  tags i category := by
    constructor
    · rintro ⟨s, hs, hi, rfl⟩
      obtain ⟨hmem, hc⟩ := List.mem_filter.1 hs
      obtain rfl : s.category = c := of_decide_eq_true hc
      rw [if_pos (h.eq_some hmem hi)]
    · intro hf
      split_ifs at hf with hi
      obtain rfl := Option.some.inj hf
      obtain ⟨s, hs, hcovers, rfl⟩ := (h.tags i c).2 hi
      exact ⟨s, List.mem_filter.2 ⟨hs, decide_eq_true rfl⟩, hcovers, rfl⟩

lemma nodup (h : Describes spans f) : spans.Nodup := by
  refine h.pairwise.imp_of_mem fun {s t} hs _ hprecedes => ?_
  rintro rfl
  have hlt := h.start_lt_stop s hs
  have hle := hprecedes.1
  omega

/-- **Only one list** tells the categories of the offsets. -/
theorem unique {spans' : List StyleSpan} (h : Describes spans f) (h' : Describes spans' f) :
    spans = spans' := by
  have hperm : spans.Perm spans' :=
    (List.perm_ext_iff_of_nodup h.nodup h'.nodup).2 fun s => h.mem_iff.trans h'.mem_iff.symm
  refine hperm.eq_of_pairwise (fun s t hs ht hst hts => ?_) h.pairwise h'.pairwise
  have hlt := h.start_lt_stop s hs
  have hlt' := h'.start_lt_stop t ht
  have hle := hst.1
  have hle' := hts.1
  omega

end Describes

/-! ### Collecting spans -/

/-- A stretch as a span of a category. -/
def ByteRange.span (category : Category) (r : ByteRange) : StyleSpan := ⟨r.start, r.stop, category⟩

/-- Stretches in order that do not touch, as spans of one category. -/
lemma describes_map_span {ranges : List ByteRange} (hlt : ∀ r ∈ ranges, r.start < r.stop)
    (hapart : ranges.Pairwise fun r s => r.stop < s.start) (category : Category) :
    Describes (ranges.map (ByteRange.span category))
      fun i => if ∃ r ∈ ranges, r.Covers i then some category else none where
  start_lt_stop := List.forall_mem_map.2 hlt
  pairwise := List.pairwise_map.2
    (hapart.imp fun hlt => ⟨hlt.le, fun htouch => absurd htouch hlt.ne⟩)
  tags i c := by
    constructor
    · rintro ⟨s, hs, hi, rfl⟩
      obtain ⟨r, hr, rfl⟩ := List.mem_map.1 hs
      rw [if_pos ⟨r, hr, hi⟩]
      rfl
    · intro hf
      split_ifs at hf with hi
      obtain rfl := Option.some.inj hf
      obtain ⟨r, hr, hi⟩ := hi
      exact ⟨r.span category, List.mem_map_of_mem hr, hi, rfl⟩

namespace Describes

variable {spans : List StyleSpan} {f : Nat → Option Category} {category : Category}
  {start stop : Nat}

/-- One more offset behind all spans, as a span of its own. -/
lemma concat (h : Describes spans f) (hstop : ∀ s ∈ spans, s.stop ≤ stop)
    (hne : ∀ s ∈ spans, s.stop = stop → s.category ≠ category) :
    Describes (spans ++ [⟨stop, stop + 1, category⟩])
      fun i => if i = stop then some category else f i where
  start_lt_stop := List.forall_mem_append.2
    ⟨h.start_lt_stop, List.forall_mem_singleton.2 (Nat.lt_succ_self stop)⟩
  pairwise := List.pairwise_append.2 ⟨h.pairwise, List.pairwise_singleton _ _,
    fun s hs => List.forall_mem_singleton.2 ⟨hstop s hs, hne s hs⟩⟩
  tags i c := by
    simp only [List.mem_append, List.mem_singleton, or_and_right, exists_or, exists_eq_left]
    by_cases hi : i = stop
    · subst hi
      rw [if_pos rfl, Option.some.injEq]
      constructor
      · rintro (⟨s, hs, hcovers, -⟩ | ⟨-, hc⟩)
        · exact absurd hcovers.2 (hstop s hs).not_gt
        · exact hc
      · exact fun hc => .inr ⟨⟨le_refl i, Nat.lt_succ_self i⟩, hc⟩
    · rw [if_neg hi, ← h.tags i c, or_iff_left]
      rintro ⟨⟨hle, hlt⟩, -⟩
      exact hi (Nat.le_antisymm (Nat.le_of_lt_succ hlt) hle)

/-- One more offset behind all spans, as part of the last one. -/
lemma extend (h : Describes (spans ++ [⟨start, stop, category⟩]) f) :
    Describes (spans ++ [⟨start, stop + 1, category⟩])
      fun i => if i = stop then some category else f i where
  start_lt_stop := by
    obtain ⟨hspans, hlast⟩ := List.forall_mem_append.1 h.start_lt_stop
    have hlt := hlast _ List.mem_cons_self
    exact List.forall_mem_append.2 ⟨hspans, List.forall_mem_singleton.2 (Nat.lt_succ_of_lt hlt)⟩
  pairwise := by
    obtain ⟨hspans, -, hlast⟩ := List.pairwise_append.1 h.pairwise
    refine List.pairwise_append.2 ⟨hspans, List.pairwise_singleton _ _, fun s hs =>
      List.forall_mem_singleton.2 ?_⟩
    exact hlast s hs ⟨start, stop, category⟩ List.mem_cons_self
  tags i c := by
    have hlt : start < stop := h.start_lt_stop ⟨start, stop, category⟩ (by simp)
    have hbefore : ∀ s ∈ spans, s.stop ≤ start := fun s hs =>
      ((List.pairwise_append.1 h.pairwise).2.2 s hs _ List.mem_cons_self).1
    have htags := h.tags i c
    simp only [List.mem_append, List.mem_singleton, or_and_right, exists_or, exists_eq_left]
      at htags ⊢
    by_cases hi : i = stop
    · subst hi
      rw [if_pos rfl, Option.some.injEq]
      constructor
      · rintro (⟨s, hs, hcovers, -⟩ | ⟨-, hc⟩)
        · exact absurd hcovers.2 ((hbefore s hs).trans hlt.le).not_gt
        · exact hc
      · exact fun hc => .inr ⟨⟨hlt.le, Nat.lt_succ_self i⟩, hc⟩
    · rw [if_neg hi, ← htags]
      refine or_congr_right (and_congr_left fun _ => ?_)
      simp only [StyleSpan.Covers]
      omega

end Describes

namespace Paint

/-- What is collected after some bytes: if the open run ended behind them, the spans would tell
their categories, and the category of the run is that of the last byte. -/
structure Collected.Tells (c : Collected) (bytes : List (Option Category)) : Prop where
  describes : Describes (c.close bytes.length).toList fun i => bytes[i]?.join
  last : c.run.map Prod.snd = bytes.getLast?.join

namespace Collected

variable {c : Collected} {bytes : List (Option Category)}

lemma tells_nil : ({} : Collected).Tells [] :=
  ⟨⟨by simp [close], List.Pairwise.nil, by simp [close]⟩, rfl⟩

lemma getElem?_concat_join (bytes : List (Option Category)) (byte : Option Category) :
    (fun i => (bytes ++ [byte])[i]?.join)
      = fun i => if i = bytes.length then byte else bytes[i]?.join := by
  funext i
  rcases lt_trichotomy i bytes.length with hlt | rfl | hgt
  · rw [if_neg hlt.ne, List.getElem?_append_left hlt]
  · simp
  · rw [if_neg hgt.ne', List.getElem?_eq_none (by simp; omega), List.getElem?_eq_none hgt.le]

lemma Tells.stop_le (h : c.Tells bytes) {s : StyleSpan} (hs : s ∈ (c.close bytes.length).toList) :
    s.stop ≤ bytes.length :=
  h.describes.stop_le (fun i hi => by rw [List.getElem?_eq_none hi]; rfl) hs

/-- A span that reaches the end of the bytes is that of the open run. -/
lemma Tells.run_of_stop_eq (h : c.Tells bytes) {s : StyleSpan}
    (hs : s ∈ (c.close bytes.length).toList) (hend : s.stop = bytes.length) :
    c.run.map Prod.snd = some s.category := by
  have hlt := h.describes.start_lt_stop s hs
  have hlast := h.describes.eq_some hs (i := bytes.length - 1) ⟨by omega, by omega⟩
  rw [h.last, List.getLast?_eq_getElem?, hlast]

/-- **Each byte** that is added is told as well. -/
lemma Tells.add (h : c.Tells bytes) (byte : Option Category) :
    (c.add (byte, bytes.length)).Tells (bytes ++ [byte]) := by
  rw [Collected.add]
  split
  · -- the byte joins the open run
    rename_i hjoin
    obtain ⟨hsome, hrun⟩ := hjoin
    obtain ⟨category, rfl⟩ := Option.isSome_iff_exists.1 hsome
    obtain ⟨⟨start, category⟩, hopen, rfl⟩ := Option.map_eq_some_iff.1 hrun
    have hclose : ∀ stop, (c.close stop).toList = c.complete.toList ++ [⟨start, stop, category⟩] :=
      fun stop => by rw [close, hopen, Array.toList_push]
    refine ⟨?_, by rw [hopen]; simp⟩
    rw [getElem?_concat_join, List.length_append, List.length_singleton, hclose]
    exact (hclose _ ▸ h.describes).extend
  · rename_i hjoin
    refine ⟨?_, by cases byte <;> simp⟩
    rw [getElem?_concat_join, List.length_append, List.length_singleton]
    cases byte with
    | none =>
        have hsame : (fun i => if i = bytes.length then none else bytes[i]?.join)
            = fun i => bytes[i]?.join := by
          funext i
          split
          · rename_i hi
            rw [List.getElem?_eq_none hi.ge]
            rfl
          · rfl
        rw [hsame]
        exact h.describes
    | some category =>
        have hne : ∀ s ∈ (c.close bytes.length).toList, s.stop = bytes.length →
            s.category ≠ category :=
          fun s hs hend hsame => hjoin ⟨rfl, hsame ▸ h.run_of_stop_eq hs hend⟩
        simpa [close] using h.describes.concat (fun s hs => h.stop_le hs) hne

/-- **All bytes** that are added are told. -/
lemma tells_foldl (bytes : List (Option Category)) :
    (bytes.zipIdx.foldl Collected.add {}).Tells bytes := by
  induction bytes using List.reverseRecOn with
  | nil => exact tells_nil
  | append_singleton bytes byte ih =>
      rw [List.zipIdx_append, List.foldl_append, Nat.zero_add]
      exact ih.add byte

end Collected

/-- **The spans that are collected** from a paint tell the categories of its bytes. -/
theorem describes_spans (paint : Paint) : Describes paint.spans paint.categoryAt := by
  have hcategory : paint.categoryAt = fun i => paint.toList[i]?.join := by
    funext i
    rw [categoryAt, Array.getElem?_toList]
  rw [hcategory]
  exact (Collected.tells_foldl paint.toList).describes

end Paint

end Folio

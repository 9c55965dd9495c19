import Mathlib.Tactic
import Folio.Proofs.Highlight.Composition
import Folio.Proofs.Highlight.KeywordSpans

/-!
The bytes of comments in highlighted text.

* `Highlight.OnLineComment`: a byte with the mark of a comment before it on its line.
* `Highlight.blockRegions`: the comments between marks, cut off one by one; the rule looks at no
  pattern, but `Highlight.occurrences_blockComment`: the pattern finds these.
* `highlight_commentBytes`: the bytes of comments are those of either kind without a number on them.
-/

namespace Folio

open Text

namespace Highlight

variable {pre mid post rest text a b m : List Char} {c : Char} {i : Nat}

/-! ### Comments to the end of a line -/

/-- The mark of a comment starts at the byte or before it, and from there to the byte there is no
line feed. -/
def OnLineComment (text : List Char) (i : Nat) : Prop :=
  ∃ a m c post, IsByteOf text i (a ++ m) c post ∧ ['/', '/'] <+: m ++ c :: post ∧
    '\n' ∉ m ++ [c]

/-- A stretch without a line feed that starts within one that stops at the end of a line stops
within it as well. -/
lemma byteCount_le_of_newline_notMem (h : pre ++ (mid ++ post) = a ++ (m ++ rest))
    (hle : byteCount a ≤ byteCount (pre ++ mid)) (hm : '\n' ∉ m)
    (hpost : ∀ x ∈ post.head?, x = '\n') : byteCount (a ++ m) ≤ byteCount (pre ++ mid) := by
  by_contra hlt
  rw [← List.append_assoc, ← List.append_assoc] at h
  obtain ⟨z, hz, rfl⟩ := append_eq_append_of_le h (by omega)
  obtain ⟨w, -, rfl⟩ := append_eq_append_of_le hz hle
  cases z with
  | nil =>
      rw [hz, List.append_nil] at hlt
      exact hlt le_rfl
  | cons x z =>
      obtain rfl : x = '\n' := hpost x rfl
      exact hm (List.mem_append_right w List.mem_cons_self)

/-- A comment goes over every mark in the text, and stops at the end of its line. -/
lemma exists_lineComment_of_mark (htext : text = a ++ (['/', '/'] ++ b)) :
    ∃ pre mid post, text = pre ++ (mid ++ post) ∧
      ⟨byteCount pre, byteCount (pre ++ mid)⟩ ∈ lineComment.occurrences text ∧
      byteCount pre ≤ byteCount a ∧ byteCount a ≤ byteCount (pre ++ mid) ∧
      ∀ x ∈ post.head?, x = '\n' := by
  by_cases hover : ∃ r ∈ lineComment.occurrences text,
      r.start < byteCount a ∧ byteCount a < r.stop
  · obtain ⟨r, hr, hstart, hstop⟩ := hover
    obtain ⟨pre, mid, post, htext', -, hend, rfl⟩ := Pattern.exists_of_mem_occurrences hr
    obtain ⟨-, -, -, hpost⟩ := exists_of_end?_lineComment hend
    exact ⟨pre, mid, post, htext', hr, hstart.le, hstop.le, hpost⟩
  · -- otherwise one starts there
    obtain ⟨body, post, rfl, hend⟩ : ∃ body post, b = body ++ post ∧
        lineComment.end? (.between a (['/', '/'] ++ b))
          = some (.between (a ++ ['/', '/'] ++ body) post) :=
      ⟨_, _, List.takeWhile_append_dropWhile.symm, end?_lineComment a b⟩
    rw [← List.append_assoc, List.append_assoc a] at hend
    rw [← List.append_assoc ['/', '/']] at htext
    have hfound := Pattern.mem_occurrences_of_end? htext (by simp) hend
      fun r hr hcovers => hover ⟨r, hr, hcovers⟩
    obtain ⟨-, -, -, hpost⟩ := exists_of_end?_lineComment hend
    exact ⟨a, _, post, htext, hfound, le_rfl, by simp, hpost⟩

/-- **Comments to the end of a line** have matches on the bytes behind their marks. -/
theorem covers_lineComment_iff : lineComment.Covers text i ↔ OnLineComment text i := by
  constructor
  · intro hcovers
    obtain ⟨p, c, q, hi⟩ := exists_isByteOf hcovers.lt_byteCount
    obtain ⟨r, hr, hle, hlt⟩ := hcovers
    obtain ⟨pre, mid, post, htext, -, hend, rfl⟩ := Pattern.exists_of_mem_occurrences hr
    obtain ⟨body, hmid, hline, -⟩ := exists_of_end?_lineComment hend
    obtain ⟨m, rfl, hrest⟩ := hi.exists_append_of_le htext hle
    obtain ⟨m₁, m₂, hplace, hsplit⟩ := hi.exists_split htext hle hlt
    obtain rfl := List.append_cancel_left hplace
    refine ⟨pre, m, c, q, hi, ?_, fun hmem => ?_⟩
    · rw [← hrest, hmid, List.append_assoc]
      exact List.prefix_append _ _
    · rw [hsplit, List.append_cons] at hline
      exact hline (List.mem_append_left m₂ hmem)
  · rintro ⟨a, m, c, post, hi, ⟨b, hmark⟩, hline⟩
    have htext : text = a ++ (['/', '/'] ++ b) := by rw [hi.1, hmark, List.append_assoc]
    obtain ⟨pre, mid, post', htext', hr, hle, hle', hpost⟩ := exists_lineComment_of_mark htext
    obtain ⟨htext'', hstart, hstop⟩ := hi
    have hrest : pre ++ (mid ++ post') = a ++ (m ++ [c] ++ post) := by
      rw [← htext', htext'']
      simp
    have hwithin := byteCount_le_of_newline_notMem hrest hle' hline hpost
    simp only [byteCount_append, byteCount_cons, byteCount_nil] at hstart hstop hwithin hle
    refine ⟨_, hr, ?_, ?_⟩
    · show byteCount pre ≤ i
      omega
    · show i < byteCount (pre ++ mid)
      rw [byteCount_append]
      omega

/-! ### Comments between marks -/

/-- The text before the first place of a mark, and the text behind the mark there. -/
def cutAt? (mark : List Char) : List Char → Option (List Char × List Char)
  | [] => none
  | x :: rest =>
    if mark <+: x :: rest then some ([], (x :: rest).drop mark.length)
    else (cutAt? mark rest).map fun (before, behind) => (x :: before, behind)

variable {mark : List Char}

/-- What a cut is cut of. -/
lemma eq_append_of_cutAt? (h : cutAt? mark text = some (a, b)) : text = a ++ (mark ++ b) := by
  induction text generalizing a with
  | nil => simp [cutAt?] at h
  | cons x rest ih =>
      rw [cutAt?] at h
      split_ifs at h with hmark
      · obtain ⟨rfl, rfl⟩ := Prod.mk.inj (Option.some.inj h)
        obtain ⟨rest', hrest⟩ := hmark
        rw [← hrest, List.drop_left, List.nil_append]
      · obtain ⟨⟨before, behind⟩, hcut, hpair⟩ := Option.map_eq_some_iff.1 h
        obtain ⟨rfl, rfl⟩ := Prod.mk.inj hpair
        rw [ih hcut, List.cons_append]

lemma cutAt?_eq_none_iff (hne : mark ≠ []) : cutAt? mark text = none ↔ ¬ mark <:+: text := by
  induction text with
  | nil => simpa [cutAt?] using hne
  | cons x rest ih =>
      rw [cutAt?, List.infix_cons_iff, not_or, ← ih]
      split_ifs with hmark <;> simp [hmark]

/-- The comments between marks from a cursor on: each from the first opening mark to the first
closing mark behind that, or to the end of the text. -/
def blockRegionsFrom (cursor : Nat) (text : List Char) : List ByteRange :=
  match _hopen : cutAt? ['/', '*'] text with
  | none => []
  | some (gap, rest) =>
    match _hclose : cutAt? ['*', '/'] rest with
    | none => [⟨cursor + byteCount gap, cursor + byteCount text⟩]
    | some (body, behind) =>
      let stop := cursor + byteCount (gap ++ (['/', '*'] ++ (body ++ ['*', '/'])))
      ⟨cursor + byteCount gap, stop⟩ :: blockRegionsFrom stop behind
  termination_by text.length
  decreasing_by
    rw [eq_append_of_cutAt? _hopen, eq_append_of_cutAt? _hclose]
    simp only [List.length_append, List.length_cons]
    omega

/-- The comments between marks of a text. -/
def blockRegions (text : List Char) : List ByteRange := blockRegionsFrom 0 text

/-- The sweep goes to the first opening mark. -/
lemma occurrencesFrom_blockComment (pre text : List Char) :
    blockComment.occurrencesFrom (.between pre text) =
      match cutAt? ['/', '*'] text with
      | none => []
      | some (gap, rest) =>
        blockComment.occurrencesFrom (.between (pre ++ gap) (['/', '*'] ++ rest)) := by
  induction text generalizing pre with
  | nil => exact Pattern.occurrencesFrom_nil blockComment pre
  | cons x rest ih =>
      rw [cutAt?]
      split_ifs with hmark
      · obtain ⟨rest', hrest⟩ := hmark
        rw [← hrest]
        simp
      · have hmiss : blockComment.MissesAt pre (x :: rest) := missesAt_blockComment_iff.2 hmark
        rw [Pattern.occurrencesFrom_of_none hmiss, ih]
        cases cutAt? ['/', '*'] rest with
        | none => rfl
        | some cut => simp

/-- A comment goes on to the first closing mark, or to the end of the text. -/
lemma end?_commentBody_eq (pre text : List Char) :
    commentBody.end? (.between pre text) = some
      (match cutAt? ['*', '/'] text with
      | none => .between (pre ++ text) []
      | some (body, behind) => .between (pre ++ (body ++ ['*', '/'])) behind) := by
  induction text generalizing pre with
  | nil =>
      rw [List.append_nil]
      rfl
  | cons x rest ih =>
      rw [cutAt?]
      split_ifs with hmark
      · obtain ⟨rest', hrest⟩ := hmark
        rw [← hrest, end?_commentBody_of_mark]
        simp
      · rw [end?_commentBody_cons hmark, ih]
        cases cutAt? ['*', '/'] rest with
        | none => simp
        | some cut => simp

lemma end?_blockComment_eq (pre rest : List Char) :
    blockComment.end? (.between pre (['/', '*'] ++ rest)) = some
      (match cutAt? ['*', '/'] rest with
      | none => .between (pre ++ (['/', '*'] ++ rest)) []
      | some (body, behind) =>
        .between (pre ++ (['/', '*'] ++ (body ++ ['*', '/']))) behind) := by
  rw [end?_blockComment, end?_commentBody_eq]
  simp only [List.append_assoc]

/-- The sweep from a cursor on finds the comments from that cursor on. -/
lemma occurrencesFrom_eq_blockRegionsFrom (cursor : Nat) (text : List Char) :
    ∀ pre, byteCount pre = cursor →
      blockComment.occurrencesFrom (.between pre text) = blockRegionsFrom cursor text := by
  fun_induction blockRegionsFrom cursor text with
  | case1 cursor text hopen =>
      rintro pre -
      rw [occurrencesFrom_blockComment, hopen]
  | case2 cursor text gap rest hopen hclose =>
      rintro pre rfl
      have htext := eq_append_of_cutAt? hopen
      have hend : blockComment.end? (.between (pre ++ gap) (['/', '*'] ++ rest ++ []))
          = some (.between (pre ++ gap ++ (['/', '*'] ++ rest)) []) := by
        rw [List.append_nil, end?_blockComment_eq, hclose]
      calc blockComment.occurrencesFrom (.between pre text)
          = blockComment.occurrencesFrom (.between (pre ++ gap) (['/', '*'] ++ rest ++ [])) := by
            rw [occurrencesFrom_blockComment, hopen, List.append_nil]
        _ = [⟨byteCount (pre ++ gap), byteCount (pre ++ gap ++ (['/', '*'] ++ rest))⟩] := by
            rw [Pattern.occurrencesFrom_of_end? (by simp) hend, Pattern.occurrencesFrom_nil]
        _ = [⟨byteCount pre + byteCount gap, byteCount pre + byteCount text⟩] := by
            rw [List.append_assoc, ← htext, byteCount_append, byteCount_append]
  | case3 cursor text gap rest hopen body behind hclose stop ih =>
      rintro pre rfl
      have hrest : ['/', '*'] ++ rest = ['/', '*'] ++ (body ++ ['*', '/']) ++ behind := by
        rw [eq_append_of_cutAt? hclose]
        simp
      have hend := end?_blockComment_eq (pre ++ gap) rest
      rw [hclose, hrest] at hend
      have hstop : byteCount (pre ++ gap ++ (['/', '*'] ++ (body ++ ['*', '/']))) = stop := by
        rw [List.append_assoc, byteCount_append]
      calc blockComment.occurrencesFrom (.between pre text)
          = blockComment.occurrencesFrom (.between (pre ++ gap)
              (['/', '*'] ++ (body ++ ['*', '/']) ++ behind)) := by
            rw [occurrencesFrom_blockComment, hopen, ← hrest]
        _ = ⟨byteCount (pre ++ gap),
              byteCount (pre ++ gap ++ (['/', '*'] ++ (body ++ ['*', '/'])))⟩ ::
            blockRegionsFrom stop behind := by
            rw [Pattern.occurrencesFrom_of_end? (by simp) hend, ih _ hstop]
        _ = ⟨byteCount pre + byteCount gap, stop⟩ :: blockRegionsFrom stop behind := by
            rw [hstop, byteCount_append]

/-- **The pattern of comments between marks finds these comments.** -/
theorem occurrences_blockComment (text : List Char) :
    blockComment.occurrences text = blockRegions text :=
  occurrencesFrom_eq_blockRegionsFrom 0 text [] rfl

lemma covers_blockComment_iff :
    blockComment.Covers text i ↔ ∃ r ∈ blockRegions text, r.Covers i := by
  rw [← occurrences_blockComment]
  rfl

/-- A comment that is cut off has both of its marks, one behind the other, or runs to the end of the
text. -/
lemma exists_of_mem_blockRegions {r : ByteRange} (hr : r ∈ blockRegions text) :
    ∃ pre mid post, text = pre ++ (mid ++ post) ∧ r = ⟨byteCount pre, byteCount (pre ++ mid)⟩ ∧
      (IsClosedComment mid ∨ post = []) := by
  rw [← occurrences_blockComment] at hr
  obtain ⟨pre, mid, post, htext, -, hend, hrange⟩ := Pattern.exists_of_mem_occurrences hr
  refine ⟨pre, mid, post, htext, hrange, ?_⟩
  obtain ⟨body, closing, rfl, hclosing⟩ :=
    matches_blockComment_iff.1 (Pattern.matches_of_end? hend)
  rcases hclosing with rfl | ⟨-, hpost⟩
  · exact .inl ⟨body, rfl⟩
  · exact .inr hpost

/-- An opening mark that no comment goes over, and that is not closed, opens a comment up to the end
of the text. -/
lemma mem_blockRegions_of_open (htext : text = a ++ (['/', '*'] ++ b)) (hopen : ¬ ['*', '/'] <:+: b)
    (hfree : ∀ r ∈ blockRegions text, ¬ (r.start < byteCount a ∧ byteCount a < r.stop)) :
    ⟨byteCount a, byteCount text⟩ ∈ blockRegions text := by
  have hend : blockComment.end? (.between a (['/', '*'] ++ b ++ []))
      = some (.between (a ++ (['/', '*'] ++ b)) []) := by
    rw [List.append_nil, end?_blockComment_eq, (cutAt?_eq_none_iff (by simp)).2 hopen]
  rw [← occurrences_blockComment] at hfree ⊢
  have hwhole : text = a ++ (['/', '*'] ++ b ++ []) := by rw [htext, List.append_nil]
  have hfound := Pattern.mem_occurrences_of_end? hwhole (by simp) hend hfree
  rwa [← htext] at hfound

end Highlight

open Highlight

/-- **The bytes of comments.** A byte is that of a comment if the mark of one comes before it on its
line, or if it lies in a comment between marks, and if no number has a match on it. The marks of a
comment do not overlap, and behind an opening mark that is not closed all bytes are those of
comments or numbers. -/
theorem highlight_commentBytes (text : String) (language : Language) :
    (∀ i, (∃ s ∈ highlight text language, s.Covers i ∧ s.category = .comment) ↔
      ¬ number.Covers text.toList i ∧
        (OnLineComment text.toList i ∨ ∃ r ∈ blockRegions text.toList, r.Covers i)) ∧
    (∀ r ∈ blockRegions text.toList, ∃ pre mid post, text.toList = pre ++ (mid ++ post) ∧
      r = ⟨byteCount pre, byteCount (pre ++ mid)⟩ ∧ (IsClosedComment mid ∨ post = [])) ∧
    (∀ a b, text.toList = a ++ (['/', '*'] ++ b) → ¬ ['*', '/'] <:+: b →
      (∀ r ∈ blockRegions text.toList, ¬ (r.start < byteCount a ∧ byteCount a < r.stop)) →
      ∀ i, byteCount a ≤ i → i < text.utf8ByteSize → ∃ s ∈ highlight text language, s.Covers i ∧
        (s.category = .comment ∨ s.category = .number)) := by
  have hdescribes := describes_highlight text language
  have hcomment : ∀ i, lastPass text.toList (passes language) i = some .comment ↔
      ¬ number.Covers text.toList i ∧
        (OnLineComment text.toList i ∨ ∃ r ∈ blockRegions text.toList, r.Covers i) := by
    intro i
    rw [lastPass_eq_comment_iff, covers_lineComment_iff, covers_blockComment_iff]
  refine ⟨fun i => (hdescribes.tags i .comment).trans (hcomment i),
    fun r hr => exists_of_mem_blockRegions hr, fun a b htext hopen hfree i hle hlt => ?_⟩
  rw [← byteCount_toList] at hlt
  have hregion := mem_blockRegions_of_open htext hopen hfree
  by_cases hnumber : number.Covers text.toList i
  · obtain ⟨s, hs, hcovers, hcategory⟩ :=
      (hdescribes.tags i .number).2 (lastPass_eq_number_iff.2 hnumber)
    exact ⟨s, hs, hcovers, .inr hcategory⟩
  · obtain ⟨s, hs, hcovers, hcategory⟩ :=
      (hdescribes.tags i .comment).2 ((hcomment i).2 ⟨hnumber, .inr ⟨_, hregion, hle, hlt⟩⟩)
    exact ⟨s, hs, hcovers, .inl hcategory⟩

/-- The star of an opening mark is no part of a closing one, so that this comment stays open, over a
number and a line feed. -/
theorem highlight_commentBytes_of_open_comment :
    let text := "a /*/ 1\né"
    text.toList = "a ".toList ++ (['/', '*'] ++ "/ 1\né".toList) ∧
    ¬ ['*', '/'] <:+: "/ 1\né".toList ∧ blockRegions text.toList = [⟨2, 10⟩] ∧
    ∀ i, 2 ≤ i → i < text.utf8ByteSize → ∃ s ∈ highlight text .java, s.Covers i ∧
      (s.category = .comment ∨ s.category = .number) := by
  intro text
  have htext : text.toList = "a ".toList ++ (['/', '*'] ++ "/ 1\né".toList) := by decide +kernel
  have hopen : ¬ ['*', '/'] <:+: "/ 1\né".toList := by decide +kernel
  have hregions : blockRegions text.toList = [⟨2, 10⟩] := by decide +kernel
  have hfree : ∀ r ∈ blockRegions text.toList,
      ¬ (r.start < byteCount "a ".toList ∧ byteCount "a ".toList < r.stop) := by
    rw [hregions]
    decide +kernel
  obtain ⟨-, -, hcomment⟩ := highlight_commentBytes text .java
  exact ⟨htext, hopen, hregions, hcomment _ _ htext hopen hfree⟩

end Folio

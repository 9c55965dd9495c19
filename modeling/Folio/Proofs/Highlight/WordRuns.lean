import Mathlib.Tactic
import Folio.Proofs.Highlight.Occurrences
import Folio.Proofs.Highlight.Paint

/-!
Words of a text, and patterns that do not cut them.

* `WordRun`: a maximal run of word characters. `WordRun.eq_of_touch`: two runs that overlap or touch
  are the same.
* `Pattern.RespectsWords`: the preferred matches of a pattern neither start nor end inside a word,
  so that `Pattern.RespectsWords.covers_iff`: a match covers the whole of a run or nothing of it.
-/

namespace Folio

open Text

/-- The characters on both sides of a place are part of a word. -/
def InsideWord (pre post : List Char) : Prop :=
  pre.getLast?.any isWord = true ∧ post.head?.any isWord = true

lemma AtEdge.not_insideWord {pre post : List Char} (h : AtEdge pre post) :
    ¬ InsideWord pre post :=
  fun hin => h (hin.1.trans hin.2.symm)

/-- Behind a word, an edge is where the word does not go on. -/
lemma atEdge_behind_word {pre post : List Char} (h : pre.getLast?.any isWord = true) :
    AtEdge pre post ↔ post.head?.any isWord = false := by
  rw [AtEdge, h, ne_comm, ne_eq, Bool.not_eq_true]

/-- Where no word leads up to, an edge is where one starts. -/
lemma atEdge_behind_other {pre post : List Char} (h : pre.getLast?.any isWord = false) :
    AtEdge pre post ↔ post.head?.any isWord = true := by
  rw [AtEdge, h, ne_comm, ne_eq, Bool.not_eq_false]

/-- Before a word, an edge is where no word leads up to. -/
lemma atEdge_before_word {pre post : List Char} (h : post.head?.any isWord = true) :
    AtEdge pre post ↔ pre.getLast?.any isWord = false := by
  rw [AtEdge, h, ne_eq, Bool.not_eq_true]

/-- The offset falls inside a word of the text. -/
def InWord (text : List Char) (offset : Nat) : Prop :=
  ∃ pre post, text = pre ++ post ∧ byteCount pre = offset ∧ InsideWord pre post

lemma inWord_append_iff {pre post : List Char} :
    InWord (pre ++ post) (byteCount pre) ↔ InsideWord pre post := by
  constructor
  · rintro ⟨pre', post', htext, hoffset, hin⟩
    obtain ⟨rfl, rfl⟩ := append_inj_of_byteCount htext hoffset.symm
    exact hin
  · intro hin
    exact ⟨pre, post, rfl, rfl, hin⟩

lemma any_getLast?_of_forall {word : List Char} (hne : word ≠ [])
    (hword : ∀ c ∈ word, isWord c = true) (pre : List Char) :
    (pre ++ word).getLast?.any isWord = true := by
  rw [List.getLast?_append_of_ne_nil pre hne, List.getLast?_eq_some_getLast hne]
  exact hword _ (List.getLast_mem hne)

lemma any_head?_of_forall {word : List Char} (hne : word ≠ [])
    (hword : ∀ c ∈ word, isWord c = true) (post : List Char) :
    (word ++ post).head?.any isWord = true := by
  rw [List.head?_append_of_ne_nil word hne, List.head?_eq_some_head hne]
  exact hword _ (List.head_mem hne)

/-! ### Runs of word characters -/

/-- The stretch of a text between two offsets is a maximal run of word characters. -/
def WordRun (text : List Char) (start stop : Nat) (word : List Char) : Prop :=
  ∃ pre post, text = pre ++ (word ++ post) ∧ byteCount pre = start ∧
    byteCount (pre ++ word) = stop ∧ word ≠ [] ∧ (∀ c ∈ word, isWord c = true) ∧
    pre.getLast?.any isWord = false ∧ post.head?.any isWord = false

lemma wordRun_append_iff {pre word post : List Char} :
    WordRun (pre ++ (word ++ post)) (byteCount pre) (byteCount (pre ++ word)) word ↔
      word ≠ [] ∧ (∀ c ∈ word, isWord c = true) ∧ pre.getLast?.any isWord = false ∧
        post.head?.any isWord = false := by
  constructor
  · rintro ⟨pre', post', htext, hstart, -, hrun⟩
    obtain ⟨rfl, hrest⟩ := append_inj_of_byteCount htext hstart.symm
    obtain rfl := List.append_cancel_left hrest
    exact hrun
  · intro hrun
    exact ⟨pre, post, rfl, rfl, rfl, hrun⟩

namespace WordRun

variable {text word word' : List Char} {start stop start' stop' offset : Nat}

lemma start_lt_stop (h : WordRun text start stop word) : start < stop := by
  obtain ⟨pre, post, -, rfl, rfl, hne, -⟩ := h
  have hpos := byteCount_pos hne
  rw [byteCount_append]
  omega

lemma isCut (h : WordRun text start stop word) : IsCut text start ∧ IsCut text stop := by
  obtain ⟨pre, post, rfl, rfl, rfl, -⟩ := h
  exact ⟨⟨pre, word ++ post, rfl, rfl⟩, ⟨pre ++ word, post, by rw [List.append_assoc], rfl⟩⟩

/-- The edges of a run are not inside a word. -/
lemma not_inWord (h : WordRun text start stop word) :
    ¬ InWord text start ∧ ¬ InWord text stop := by
  obtain ⟨pre, post, rfl, rfl, rfl, -, -, hpre, hpost⟩ := h
  constructor
  · rw [inWord_append_iff]
    rintro ⟨hbefore, -⟩
    exact Bool.false_ne_true (hpre.symm.trans hbefore)
  · rw [← List.append_assoc, inWord_append_iff]
    rintro ⟨-, hbehind⟩
    exact Bool.false_ne_true (hpost.symm.trans hbehind)

lemma inWord (h : WordRun text start stop word) (hcut : IsCut text offset)
    (hstart : start < offset) (hstop : offset < stop) : InWord text offset := by
  obtain ⟨pre, post, rfl, rfl, rfl, -, hword, -⟩ := h
  obtain ⟨a, b, htext, rfl⟩ := hcut
  obtain ⟨m₁, rfl, hrest⟩ := append_eq_append_of_le htext hstart.le
  have hle : byteCount m₁ ≤ byteCount word := by
    rw [byteCount_append, byteCount_append] at hstop
    omega
  obtain ⟨m₂, rfl, rfl⟩ := append_eq_append_of_le hrest.symm hle
  have hm₁ : m₁ ≠ [] := by
    rintro rfl
    simp at hstart
  have hm₂ : m₂ ≠ [] := by
    rintro rfl
    simp at hstop
  rw [htext, inWord_append_iff]
  constructor
  · exact any_getLast?_of_forall hm₁ (fun c hc => hword c (List.mem_append_left m₂ hc)) pre
  · exact any_head?_of_forall hm₂ (fun c hc => hword c (List.mem_append_right m₁ hc)) post

/-- No run starts where another one stops. -/
lemma stop_ne_start (h : WordRun text start stop word) (h' : WordRun text start' stop' word') :
    stop ≠ start' := by
  obtain ⟨pre, post, htext, -, rfl, -, -, -, hpost⟩ := h
  obtain ⟨pre', post', rfl, rfl, -, hne, hword, -⟩ := h'
  intro htouch
  rw [← List.append_assoc pre word post] at htext
  obtain ⟨-, hrest⟩ := append_inj_of_byteCount htext htouch.symm
  have hhead := any_head?_of_forall hne hword post'
  rw [hrest, hpost] at hhead
  exact Bool.false_ne_true hhead

/-- **Two runs that overlap or touch** have the same edges. -/
theorem eq_of_touch (h : WordRun text start stop word) (h' : WordRun text start' stop' word')
    (hle : start ≤ stop') (hle' : start' ≤ stop) : start = start' ∧ stop = stop' := by
  have hne := h.stop_ne_start h'
  have hne' := h'.stop_ne_start h
  -- otherwise an edge of one run would be inside the word of the other
  have hstart : ¬ start < start' := fun hlt =>
    h'.not_inWord.1 (h.inWord h'.isCut.1 hlt (by omega))
  have hstart' : ¬ start' < start := fun hlt =>
    h.not_inWord.1 (h'.inWord h.isCut.1 hlt (by omega))
  have hstop : ¬ stop < stop' := fun hlt =>
    h.not_inWord.2 (h'.inWord h.isCut.2 (by omega) hlt)
  have hstop' : ¬ stop' < stop := fun hlt =>
    h'.not_inWord.2 (h.inWord h'.isCut.2 (by omega) hlt)
  omega

end WordRun

/-! ### Patterns that respect words -/

namespace Pattern

variable {p : Pattern} {text word : List Char} {start stop i : Nat} {r : ByteRange}

/-- The preferred matches of the pattern neither start nor end inside a word. -/
def RespectsWords (p : Pattern) : Prop :=
  ∀ pre mid post, p.end? (.between pre (mid ++ post)) = some (.between (pre ++ mid) post) →
    ¬ InsideWord pre (mid ++ post) ∧ ¬ InsideWord (pre ++ mid) post

/-- The matches that are found do not start or end inside a word. -/
lemma RespectsWords.not_inWord (hp : p.RespectsWords) (hr : r ∈ p.occurrences text) :
    ¬ InWord text r.start ∧ ¬ InWord text r.stop := by
  obtain ⟨pre, mid, post, rfl, -, hend, rfl⟩ := exists_of_mem_occurrences hr
  obtain ⟨hstart, hstop⟩ := hp pre mid post hend
  refine ⟨fun hin => hstart (inWord_append_iff.1 hin), fun hin => hstop ?_⟩
  rw [← List.append_assoc] at hin
  exact inWord_append_iff.1 hin

/-- **A match covers the whole of a word** or nothing of it. -/
theorem RespectsWords.covers_iff (hp : p.RespectsWords) (hr : r ∈ p.occurrences text)
    (hw : WordRun text start stop word) (hstart : start ≤ i) (hstop : i < stop) :
    r.Covers i ↔ r.start ≤ start ∧ stop ≤ r.stop := by
  obtain ⟨hin, hin'⟩ := hp.not_inWord hr
  obtain ⟨hcut, hcut', -⟩ := isCut_of_mem_occurrences hr
  constructor
  · rintro ⟨hle, hlt⟩
    constructor
    · by_contra hmore
      exact hin (hw.inWord hcut (by omega) (by omega))
    · by_contra hless
      exact hin' (hw.inWord hcut' (by omega) (by omega))
  · rintro ⟨hle, hle'⟩
    exact ⟨by omega, by omega⟩

end Pattern

end Folio

import Mathlib.Tactic
import Folio.Proofs.Layout.Conservation
import Folio.Proofs.Layout.LineWords

/-!
Pagination with a measurer that lacks some characters.

* `Measurer.Lacks`: the measurer fails exactly on the texts with one of the characters.
* `NoneOffends`: no word of a line has such a character, nor has the space between two of them.
* `exists_fill_eq_error`: every word is measured behind the words on its fragment, wherever the line
  is broken, so that filling fails at the first word that offends.
-/

namespace Folio

variable {missing : Set Char} {before after ws part : List String} {w : String} {c : Char}

/-- The measurer fails exactly on the texts with a missing character. -/
def Measurer.Lacks (measure : Measurer) (missing : Set Char) : Prop :=
  ∀ text, (∃ cause, measure text = .error cause) ↔ ∃ c ∈ text.toList, c ∈ missing

/-- The word has a missing character, or it stands behind other words of its line and the space
before it is missing. -/
def Offends (missing : Set Char) (before : List String) (w : String) : Prop :=
  (∃ c ∈ w.toList, c ∈ missing) ∨ ' ' ∈ missing ∧ before ≠ []

/-- No word of the line offends. -/
def NoneOffends (missing : Set Char) (ws : List String) : Prop :=
  ∀ before w after, ws = before ++ w :: after → ¬ Offends missing before w

/-- Of the words of all lines, `w` is the first that offends. It stands behind `before` on its
line. -/
def FirstOffending (missing : Set Char) (lines : List (List String)) (before : List String)
    (w : String) : Prop :=
  ∃ above after below, lines = above ++ (before ++ w :: after) :: below ∧
    (∀ ws ∈ above, NoneOffends missing ws) ∧ NoneOffends missing before ∧ Offends missing before w

/-! ### Measurers that lack characters -/

lemma Measurer.holds_singleton_iff {text : List Char} : holds [c] text = true ↔ c ∈ text := by
  induction text with
  | nil => simp [holds]
  | cons d text ih => simp [holds, ih]

/-- A measurer that refuses a character lacks this one and those that it lacked before. -/
lemma Measurer.Lacks.refusing {other : Measurer} (h : other.Lacks missing) {needle : String}
    (hneedle : needle.toList = [c]) (message : String) :
    (Measurer.refusing needle message other).Lacks (insert c missing) := fun text => by
  rw [Measurer.refusing, hneedle]
  by_cases hc : c ∈ text.toList
  · rw [if_pos (holds_singleton_iff.2 hc)]
    exact ⟨fun _ => ⟨c, hc, Set.mem_insert c missing⟩, fun _ => ⟨_, rfl⟩⟩
  · rw [if_neg (holds_singleton_iff.not.2 hc), h text]
    refine exists_congr fun d => and_congr_right fun hd => ?_
    rw [Set.mem_insert_iff, or_iff_right fun heq : d = c => hc (heq ▸ hd)]

/-- If all characters have one width, none is missing. -/
lemma Measurer.lacks_monospace (advance : Points) : (Measurer.monospace advance).Lacks ∅ :=
  fun text => by simp [Measurer.monospace]

/-! ### Characters of joined words -/

lemma mem_joinWords_iff :
    c ∈ (joinWords ws).toList ↔ (∃ w ∈ ws, c ∈ w.toList) ∨ c = ' ' ∧ 2 ≤ ws.length := by
  induction ws using List.reverseRecOn with
  | nil => simp [joinWords]
  | append_singleton ws w ih =>
      by_cases hws : ws = []
      · simp [hws]
      · have hlength : 2 ≤ (ws ++ [w]).length := by
          have hpos := List.length_pos_of_ne_nil hws
          rw [List.length_append, List.length_singleton]
          omega
        have hspace : " ".toList = [' '] := rfl
        have hwords : (∃ v ∈ ws ++ [w], c ∈ v.toList)
            ↔ (∃ v ∈ ws, c ∈ v.toList) ∨ c ∈ w.toList := by
          simp [or_and_right, exists_or]
        rw [joinWords_concat hws, String.toList_append, String.toList_append, List.mem_append,
          List.mem_append, hspace, List.mem_singleton, ih, hwords, and_iff_left hlength]
        -- the space that joins the last word is there already, or is the first one
        rw [or_assoc (b := c = ' ' ∧ 2 ≤ ws.length), or_iff_right_of_imp And.left, or_right_comm]

/-- **No word of a line offends** exactly if the joined line has no missing character. -/
lemma noneOffends_iff :
    NoneOffends missing ws ↔ ∀ c ∈ (joinWords ws).toList, c ∉ missing := by
  constructor
  · intro h c hc hmissing
    rcases mem_joinWords_iff.1 hc with ⟨w, hw, hcw⟩ | ⟨rfl, htwo⟩
    · obtain ⟨before, after, hws⟩ := List.append_of_mem hw
      exact h before w after hws (.inl ⟨c, hcw, hmissing⟩)
    · match ws, htwo with
      | v :: w :: ws, _ => exact h [v] w ws rfl (.inr ⟨hmissing, List.cons_ne_nil v []⟩)
  · rintro h before w after rfl (⟨c, hc, hmissing⟩ | ⟨hmissing, hne⟩)
    · exact h c (mem_joinWords_iff.2 (.inl ⟨w, by simp, hc⟩)) hmissing
    · refine h ' ' (mem_joinWords_iff.2 (.inr ⟨rfl, ?_⟩)) hmissing
      have hpos := List.length_pos_of_ne_nil hne
      simp only [List.length_append, List.length_cons]
      omega

/-- A run of words of the line has no word that offends, even where it starts. -/
lemma NoneOffends.of_infix (h : NoneOffends missing ws) (hpart : part <:+: ws) :
    NoneOffends missing part := by
  rw [noneOffends_iff] at h ⊢
  refine fun c hc => h c (mem_joinWords_iff.2 ?_)
  exact (mem_joinWords_iff.1 hc).imp (fun ⟨w, hw, hcw⟩ => ⟨w, hpart.subset hw, hcw⟩)
    fun ⟨hspace, htwo⟩ => ⟨hspace, htwo.trans hpart.length_le⟩

lemma NoneOffends.left (h : NoneOffends missing (ws ++ part)) : NoneOffends missing ws :=
  h.of_infix (List.prefix_append ws part).isInfix

lemma NoneOffends.right (h : NoneOffends missing (ws ++ part)) : NoneOffends missing part :=
  h.of_infix (List.suffix_append ws part).isInfix

/-- One more word offends on its own account. -/
lemma noneOffends_concat_iff :
    NoneOffends missing (ws ++ [w]) ↔ NoneOffends missing ws ∧ ¬ Offends missing ws w := by
  constructor
  · intro h
    exact ⟨h.left, h ws w [] rfl⟩
  · rintro ⟨hws, hw⟩ before v after hsplit
    rcases List.eq_nil_or_concat after with rfl | ⟨after, v', rfl⟩
    · obtain ⟨rfl, rfl⟩ := List.append_singleton_inj.1 hsplit
      exact hw
    · rw [List.concat_eq_append, ← List.cons_append, ← List.append_assoc,
        List.append_singleton_inj] at hsplit
      exact hws before v after hsplit.1

lemma exists_first_offending (h : ¬ NoneOffends missing ws) :
    ∃ before w after, ws = before ++ w :: after ∧ NoneOffends missing before ∧
      Offends missing before w := by
  induction ws using List.reverseRecOn with
  | nil => exact absurd (fun before w after hnil => by simp at hnil) h
  | append_singleton ws w ih =>
      by_cases hws : NoneOffends missing ws
      · have hw : Offends missing ws w := by
          by_contra hnot
          exact h (noneOffends_concat_iff.2 ⟨hws, hnot⟩)
        exact ⟨ws, w, [], rfl, hws, hw⟩
      · obtain ⟨before, v, after, rfl, hbefore, hv⟩ := ih hws
        exact ⟨before, v, after ++ [w], by simp, hbefore, hv⟩

/-- Lines on some of which a word offends have a first such word. -/
lemma exists_firstOffending {lines : List (List String)}
    (h : ∃ ws ∈ lines, ¬ NoneOffends missing ws) :
    ∃ before w, FirstOffending missing lines before w := by
  classical
  have hsome : (lines.find? fun ws => ¬ NoneOffends missing ws).isSome := by simpa using h
  obtain ⟨ws, hfind⟩ := Option.isSome_iff_exists.1 hsome
  obtain ⟨hws, above, below, rfl, habove⟩ := List.find?_eq_some_iff_append.1 hfind
  obtain ⟨before, w, after, rfl, hbefore, hw⟩ := exists_first_offending (of_decide_eq_true hws)
  exact ⟨before, w, above, after, below, rfl, by simpa using habove, hbefore, hw⟩

/-! ### Measuring one line -/

section Wrapping

variable {measure : Measurer} (h : measure.Lacks missing) (limit : Points)
include h

/-- A run of words without one that offends can be measured. -/
lemma exists_width_of_noneOffends (hws : NoneOffends missing ws) :
    ∃ width, measure.width (joinWords ws) = .ok width := by
  rw [Measurer.width]
  cases hmeasure : measure (joinWords ws) with
  | ok width => exact ⟨width, rfl⟩
  | error cause =>
      obtain ⟨c, hc, hmissing⟩ := (h _).1 ⟨cause, hmeasure⟩
      exact absurd hmissing (noneOffends_iff.1 hws c hc)

/-- A run of words cannot be measured with one more that offends. -/
lemma exists_width_of_offends (hw : Offends missing ws w) :
    ∃ cause, measure (joinWords (ws ++ [w])) = .error cause ∧
      measure.width (joinWords (ws ++ [w]))
        = .error (.unmeasured (joinWords (ws ++ [w])) cause) := by
  have hchar : ¬ ∀ c ∈ (joinWords (ws ++ [w])).toList, c ∉ missing := fun hnone =>
    noneOffends_iff.2 hnone ws w [] rfl hw
  obtain ⟨cause, hcause⟩ := (h (joinWords (ws ++ [w]))).2 (by simpa using hchar)
  refine ⟨cause, hcause, ?_⟩
  rw [Measurer.width, hcause]
  rfl

/-- **If no word offends**, filling succeeds. -/
lemma exists_fill_of_noneOffends {rest : List String} (hne : ws ≠ [])
    (hws : NoneOffends missing (ws ++ rest)) :
    ∃ fragments, fill measure.width limit (joinWords ws) rest = .ok fragments := by
  induction rest generalizing ws with
  | nil => exact ⟨[joinWords ws], rfl⟩
  | cons w rest ih =>
      rw [List.append_cons] at hws
      obtain ⟨width, hwidth⟩ := exists_width_of_noneOffends h hws.left
      obtain ⟨joined, hjoined⟩ := ih (by simp) hws
      rw [List.append_assoc] at hws
      obtain ⟨later, hlater⟩ := ih (List.cons_ne_nil w []) hws.right
      rw [joinWords_concat hne] at hwidth hjoined
      rw [joinWords_singleton] at hlater
      by_cases hfits : width < limit
      · exact ⟨joined, fill_cons_eq_ok_iff.2 ⟨width, hwidth, .inl ⟨hfits, hjoined⟩⟩⟩
      · exact ⟨_, fill_cons_eq_ok_iff.2 ⟨width, hwidth, .inr ⟨hfits, later, hlater, rfl⟩⟩⟩

/-- **At the first word that offends**, filling fails. The word is measured behind the words that
its fragment holds by then. -/
lemma exists_fill_eq_error (hne : ws ≠ []) (hbefore : NoneOffends missing (ws ++ before))
    (hw : Offends missing (ws ++ before) w) (after : List String) :
    ∃ earlier cause, earlier ≠ [] ∧ earlier <:+ ws ++ before ∧
      measure (joinWords (earlier ++ [w])) = .error cause ∧
      fill measure.width limit (joinWords ws) (before ++ w :: after)
        = .error (.unmeasured (joinWords (earlier ++ [w])) cause) := by
  induction before generalizing ws with
  | nil =>
      rw [List.append_nil] at hw
      obtain ⟨cause, hcause, hwidth⟩ := exists_width_of_offends h hw
      refine ⟨ws, cause, hne, by simp, hcause, ?_⟩
      rw [joinWords_concat hne] at hwidth ⊢
      rw [List.nil_append, fill, hwidth]
      rfl
  | cons v before ih =>
      rw [List.append_cons] at hbefore hw
      obtain ⟨width, hwidth⟩ := exists_width_of_noneOffends h hbefore.left
      by_cases hfits : width < limit
      · -- the word joins the open fragment
        obtain ⟨earlier, cause, hearlier, hsuffix, hcause, hfill⟩ := ih (by simp) hbefore hw
        refine ⟨earlier, cause, hearlier, by rwa [List.append_cons], hcause, ?_⟩
        rw [joinWords_concat hne] at hwidth hfill
        rw [List.cons_append, fill, hwidth, ← hfill]
        exact if_pos hfits
      · -- the word opens a fragment, behind which the offending one still offends
        have hw' : Offends missing ([v] ++ before) w :=
          hw.imp_right fun hjoin => ⟨hjoin.1, List.cons_ne_nil v before⟩
        rw [List.append_assoc] at hbefore
        obtain ⟨earlier, cause, hearlier, hsuffix, hcause, hfill⟩ :=
          ih (List.cons_ne_nil v []) hbefore.right hw'
        refine ⟨earlier, cause, hearlier, hsuffix.trans ⟨ws, rfl⟩, hcause, ?_⟩
        rw [joinWords_concat hne] at hwidth
        rw [joinWords_singleton] at hfill
        rw [List.cons_append, fill, hwidth, ← bind_pure (fill measure.width limit v _), hfill]
        exact if_neg hfits

lemma exists_wrapWords_of_noneOffends (hws : NoneOffends missing ws) :
    ∃ fragments, wrapWords measure.width limit ws = .ok fragments := by
  cases ws with
  | nil => exact ⟨[], rfl⟩
  | cons v ws =>
      have hline : NoneOffends missing ([v] ++ ws) := hws
      have hfirst := exists_width_of_noneOffends h hline.left
      obtain ⟨fragments, hfill⟩ :=
        exists_fill_of_noneOffends h limit (List.cons_ne_nil v []) hline
      rw [joinWords_singleton] at hfirst hfill
      exact ⟨fragments, wrapWords_cons_eq_ok_iff.2 ⟨hfirst, hfill⟩⟩

/-- Wrapping fails at the first word that offends, and measures it behind some words right
before it, or alone if it is the first of the line. -/
lemma exists_wrapWords_eq_error (hbefore : NoneOffends missing before)
    (hw : Offends missing before w) (after : List String) :
    ∃ earlier cause, earlier <:+ before ∧ (earlier = [] → before = []) ∧
      measure (joinWords (earlier ++ [w])) = .error cause ∧
      wrapWords measure.width limit (before ++ w :: after)
        = .error (.unmeasured (joinWords (earlier ++ [w])) cause) := by
  cases before with
  | nil =>
      obtain ⟨cause, hcause, hwidth⟩ := exists_width_of_offends h hw
      refine ⟨[], cause, List.suffix_rfl, fun _ => rfl, hcause, ?_⟩
      simp only [List.nil_append, joinWords_singleton] at hwidth ⊢
      rw [wrapWords, hwidth]
      rfl
  | cons v before =>
      have hline : NoneOffends missing ([v] ++ before) := hbefore
      obtain ⟨width, hfirst⟩ := exists_width_of_noneOffends h hline.left
      obtain ⟨earlier, cause, hearlier, hsuffix, hcause, hfill⟩ :=
        exists_fill_eq_error h limit (List.cons_ne_nil v []) hline hw after
      rw [joinWords_singleton] at hfirst hfill
      refine ⟨earlier, cause, hsuffix, fun hnil => absurd hnil hearlier, hcause, ?_⟩
      rw [List.cons_append, wrapWords, hfirst]
      exact hfill

end Wrapping

/-! ### Pagination -/

/-- **Pagination blames the first word that offends.**

Take a measurer that fails exactly on the texts with one of some missing characters. Pagination
succeeds if and only if no word of the text has such a character, and, in case the space is missing,
every line has at most one word; the page and the widths do not matter. Otherwise it fails at the
first such word in reading order. It complains about that word alone or behind some words right
before it on its line, and the cause is what the measurer says of just that text. -/
theorem paginate_blames_first_offending (text : String) {setup : PageSetup} {measure : Measurer}
    {missing : Set Char} (hcheck : setup.check = .ok ()) (hlacks : measure.Lacks missing) :
    ((∃ pages, paginate text setup measure = .ok pages) ↔
      ∀ ws ∈ lineWords text, NoneOffends missing ws) ∧
    ((∃ ws ∈ lineWords text, ¬ NoneOffends missing ws) →
      ∃ before w earlier cause, FirstOffending missing (lineWords text) before w ∧
        earlier <:+ before ∧ (earlier = [] → before = []) ∧
        measure (joinWords (earlier ++ [w])) = .error cause ∧
        paginate text setup measure
          = .error (.unmeasured (joinWords (earlier ++ [w])) cause)) := by
  have hwrap : ∀ line, NoneOffends missing (words line) → ∃ fragments,
      wrap measure.width setup.contentBox.width line = .ok fragments := fun line hline => by
    rw [wrap_eq_wrapWords]
    exact exists_wrapWords_of_noneOffends hlacks _ hline
  have hfails : (∃ ws ∈ lineWords text, ¬ NoneOffends missing ws) →
      ∃ before w earlier cause, FirstOffending missing (lineWords text) before w ∧
        earlier <:+ before ∧ (earlier = [] → before = []) ∧
        measure (joinWords (earlier ++ [w])) = .error cause ∧
        paginate text setup measure
          = .error (.unmeasured (joinWords (earlier ++ [w])) cause) := by
    intro hsome
    obtain ⟨before, w, hfirst⟩ := exists_firstOffending hsome
    obtain ⟨above, after, below, hlines, habove, hbefore, hw⟩ := id hfirst
    obtain ⟨earlier, cause, hsuffix, halone, hcause, hline⟩ :=
      exists_wrapWords_eq_error hlacks setup.contentBox.width hbefore hw after
    refine ⟨before, w, earlier, cause, hfirst, hsuffix, halone, hcause, ?_⟩
    rw [lineWords, List.map_eq_append_iff] at hlines
    obtain ⟨linesAbove, rest, hlogical, rfl, hrest⟩ := hlines
    obtain ⟨line, linesBelow, rfl, hwords, -⟩ := List.map_eq_cons_iff.1 hrest
    refine paginate_eq_error hcheck hlogical (fun l hl => hwrap l ?_) ?_
    · exact habove _ (List.mem_map_of_mem hl)
    · rw [wrap_eq_wrapWords, hwords, hline]
  refine ⟨⟨?_, ?_⟩, hfails⟩
  · rintro ⟨pages, hpages⟩ ws hws
    by_contra hoffends
    obtain ⟨_, _, _, _, -, -, -, -, herror⟩ := hfails ⟨ws, hws, hoffends⟩
    rw [hpages] at herror
    cases herror
  · intro hnone
    obtain ⟨wrapped, hwrapped⟩ := exists_map_eq_ok (f := wrap measure.width setup.contentBox.width)
      fun line hline => hwrap line (hnone _ (List.mem_map_of_mem hline))
    exact ⟨_, paginate_eq_ok_iff.2 ⟨hcheck, wrapped, hwrapped, rfl⟩⟩

/-- The last word of the second line is the first with the letter `q`. By then the line has been
broken once. -/
theorem paginate_blames_first_offending_of_broken_line :
    let text := "aa\nbb cc dq\nq"
    let setup : PageSetup := ⟨20, 40, 5, 5, 10, 5⟩
    let measure : Measurer := .refusing "q" "no glyph" (.monospace 3)
    let missing : Set Char := insert 'q' ∅
    setup.check = .ok () ∧ measure.Lacks missing ∧
    (∃ ws ∈ lineWords text, ¬ NoneOffends missing ws) ∧
    paginate text setup measure = .error (.unmeasured "cc dq" ⟨"no glyph"⟩) ∧
    ∃ before w earlier cause, FirstOffending missing (lineWords text) before w ∧
      earlier <:+ before ∧ (earlier = [] → before = []) ∧
      measure (joinWords (earlier ++ [w])) = .error cause ∧
      paginate text setup measure = .error (.unmeasured (joinWords (earlier ++ [w])) cause) := by
  intro text setup measure missing
  have hcheck : setup.check = .ok () := by decide +kernel
  have hlacks : measure.Lacks missing := (Measurer.lacks_monospace 3).refusing rfl "no glyph"
  have hlines : lineWords text = [["aa"], ["bb", "cc", "dq"], ["q"]] := by decide +kernel
  have hoffends : ∃ ws ∈ lineWords text, ¬ NoneOffends missing ws := by
    refine ⟨["bb", "cc", "dq"], by rw [hlines]; simp, fun hnone => ?_⟩
    exact hnone ["bb", "cc"] "dq" [] rfl (.inl ⟨'q', by decide, Set.mem_insert 'q' ∅⟩)
  have hfault : paginate text setup measure = .error (.unmeasured "cc dq" ⟨"no glyph"⟩) := by
    rw [paginate_eq]
    decide +kernel
  exact ⟨hcheck, hlacks, hoffends, hfault,
    (paginate_blames_first_offending text hcheck hlacks).2 hoffends⟩

end Folio

import Mathlib.Tactic
import Folio.Proofs.Binary.Order
import Folio.Proofs.Layout.Greedy

/-!
Wrapping uses as few lines as possible, if longer runs of words are not narrower
(`MonotoneWidths`). Where the first group of a greedy cut ends, or before, ends every group that
starts no later and fits (`Greedy.eq_nil_of_fits`), and so the greedy cut stays ahead of every other
cut into groups that fit (`Greedy.length_take_le`).
-/

namespace Folio

variable {width : String → Points} {limit : Points} {groups cut : List (List String)}
variable {g m skipped ws cs rest : List String}

/-! ### Monotone widths -/

/-- No run of the words gets wider when words are taken away from its ends. Since `≤` holds of
numbers only, all runs have numbers for their widths. -/
def MonotoneWidths (width : String → Points) (ws : List String) : Prop :=
  ∀ run part, run <:+: ws → part <:+: run → part ≠ [] →
    width (joinWords part) ≤ width (joinWords run)

lemma MonotoneWidths.of_infix (h : MonotoneWidths width ws) (hcs : cs <:+: ws) :
    MonotoneWidths width cs := fun run part hrun => h run part (hrun.trans hcs)

lemma joinWords_append {as bs : List String} (has : as ≠ []) (hbs : bs ≠ []) :
    joinWords (as ++ bs) = joinWords as ++ " " ++ joinWords bs := by
  rw [joinWords, String.intercalate_append_of_ne_nil has hbs, joinWords, joinWords]

lemma length_joinWords_le {run part : List String} (h : part <:+: run) (hne : part ≠ []) :
    (joinWords part).length ≤ (joinWords run).length := by
  have hright : ∀ as bs : List String, as ≠ [] →
      (joinWords as).length ≤ (joinWords (as ++ bs)).length := by
    intro as bs has
    by_cases hbs : bs = []
    · rw [hbs, List.append_nil]
    · rw [joinWords_append has hbs, String.length_append, String.length_append]
      omega
  have hleft : ∀ as bs : List String, bs ≠ [] →
      (joinWords bs).length ≤ (joinWords (as ++ bs)).length := by
    intro as bs hbs
    by_cases has : as = []
    · rw [has, List.nil_append]
    · rw [joinWords_append has hbs, String.length_append]
      omega
  obtain ⟨as, bs, rfl⟩ := h
  exact (hleft as part hne).trans (hright (as ++ part) bs (by simp [hne]))

/-- **Text with one width for all characters** is monotone. -/
lemma monotoneWidths_monospace {advance : Points} (hfinite : advance.value.isFinite = true)
    (hpos : 0 < advance) (ws : List String) :
    MonotoneWidths (fun text => advance * (.ofNat text.length : Binary32)) ws :=
  fun _ _ _ hpart hne =>
    Binary.mul_ofNat_le_mul_ofNat hfinite hpos (length_joinWords_le hpart hne)

/-! ### The greedy cut stays ahead -/

/-- The group is a single word, or narrower than the limit. -/
def Fits (width : String → Points) (limit : Points) (g : List String) : Prop :=
  g.length = 1 ∨ width (joinWords g) < limit

/-- A group that stays narrow fits, and under a greater limit it fits all the more. -/
lemma StaysNarrow.fits {limit' : Points} (h : StaysNarrow width limit g) (hne : g ≠ [])
    (hle : limit ≤ limit') : Fits width limit' g := by
  have hpos := List.length_pos_of_ne_nil hne
  rcases Nat.lt_or_ge g.length 2 with hone | htwo
  · exact .inl (by omega)
  · exact .inr (Binary.lt_of_lt_of_le (h.lt_of_start List.prefix_rfl htwo) hle)

namespace Greedy

/-- **A group that starts no later than the first one of a greedy cut**, and fits, goes no further:
the first one with one more word would fit as part of it. -/
lemma eq_nil_of_fits (h : Greedy width limit (g :: groups) ws) (hrest : groups.flatten = m ++ rest)
    (hmono : MonotoneWidths width (skipped ++ g ++ m))
    (hfits : Fits width limit (skipped ++ g ++ m)) : m = [] := by
  by_contra hne
  obtain ⟨w, m, rfl⟩ := List.exists_cons_of_ne_nil hne
  have hg : g ≠ [] := h.ne_nil g List.mem_cons_self
  have hpos := List.length_pos_of_ne_nil hg
  have hnarrow : width (joinWords (skipped ++ g ++ w :: m)) < limit :=
    hfits.resolve_left fun hone => by
      simp only [List.length_append, List.length_cons] at hone
      omega
  have hpart : g ++ [w] <:+: skipped ++ g ++ w :: m := ⟨skipped, m, by simp⟩
  have hle := hmono _ _ List.infix_rfl hpart (by simp)
  rw [joinWords_concat hg] at hle
  exact h.not_lt hrest (Binary.lt_of_le_of_lt hle hnarrow)

/-- **The greedy cut stays ahead**: the first groups of any cut into groups that fit hold no more
words than as many groups of the greedy cut, also if that one starts further on. -/
theorem length_take_le (hmono : MonotoneWidths width cs) (hcut : Cuts cut cs)
    (hfits : ∀ c ∈ cut, Fits width limit c) (h : Greedy width limit groups ws)
    (hcs : cs = skipped ++ ws) (k : Nat) :
    (cut.take k).flatten.length ≤ skipped.length + (groups.take k).flatten.length := by
  induction k generalizing cut cs groups ws skipped with
  | zero => simp
  | succ k ih =>
      match cut, groups with
      | [], _ => simp
      | c :: cut, [] =>
          -- the greedy cut has come to the end of the words
          obtain rfl : ws = [] := h.eq_nil_iff.1 rfl
          have hle := ((c :: cut).take_sublist (k + 1)).flatten.length_le
          rw [hcut.flatten_eq, hcs, List.append_nil] at hle
          simpa using hle
      | c :: cut, g :: groups =>
          have hwords : c ++ cut.flatten = skipped ++ g ++ groups.flatten := by
            rw [List.append_assoc, ← List.flatten_cons, ← List.flatten_cons, hcut.flatten_eq,
              h.flatten_eq, hcs]
          have hc : c <:+: cs := ⟨[], cut.flatten, by rw [← hcut.flatten_eq]; rfl⟩
          have hfit := hfits c List.mem_cons_self
          -- the group of the other cut ends within what the greedy cut has taken
          obtain ⟨ahead, hahead, hrest⟩ : ∃ ahead, skipped ++ g = c ++ ahead ∧
              cut.flatten = ahead ++ groups.flatten := by
            rcases List.append_eq_append_iff.1 hwords with ⟨m, hm, hrest⟩ | ⟨m, rfl, hrest⟩
            · exact ⟨m, hm, hrest⟩
            · obtain rfl := h.eq_nil_of_fits hrest (hmono.of_infix hc) hfit
              exact ⟨[], by simp, by simpa using hrest.symm⟩
          have hmono' : MonotoneWidths width cut.flatten :=
            hmono.of_infix ⟨c, [], by rw [← hcut.flatten_eq]; simp⟩
          have hcut' : Cuts cut cut.flatten :=
            ⟨rfl, fun d hd => hcut.ne_nil d (List.mem_cons_of_mem c hd)⟩
          have hle := ih hmono' hcut' (fun d hd => hfits d (List.mem_cons_of_mem c hd)) h.tail hrest
          have hlength := congrArg List.length hahead
          simp only [List.length_append] at hlength
          simp only [List.take_succ_cons, List.flatten_cons, List.length_append]
          omega

/-- The greedy cut has no more groups than any other one into groups that fit. -/
theorem length_le (hmono : MonotoneWidths width ws) (hcut : Cuts cut ws)
    (hfits : ∀ c ∈ cut, Fits width limit c) (h : Greedy width limit groups ws) :
    groups.length ≤ cut.length := by
  by_contra hlt
  have hahead := h.length_take_le hmono hcut hfits (List.nil_append ws).symm cut.length
  rw [List.take_length, hcut.flatten_eq, ← h.flatten_eq, List.length_nil, Nat.zero_add] at hahead
  -- the groups that are left hold words
  have hsplit : groups.flatten.length = (groups.take cut.length).flatten.length
      + (groups.drop cut.length).flatten.length := by
    rw [← List.length_append, ← List.flatten_append, List.take_append_drop]
  have hdrop : groups.drop cut.length ≠ [] := by simpa using hlt
  obtain ⟨g, later, hlater⟩ := List.exists_cons_of_ne_nil hdrop
  have hg : g ∈ groups := List.mem_of_mem_drop (hlater ▸ List.mem_cons_self)
  have hpos := List.length_pos_of_ne_nil (h.ne_nil g hg)
  rw [hlater, List.flatten_cons, List.length_append] at hsplit
  omega

end Greedy

/-- **Wrapping uses as few lines as possible.**

Suppose that every text can be measured, and that no run of the words of a line gets wider when
words are taken away from its ends. Take any other cut of the words into groups, each of them a
single word or narrower than the limit. For every number, so many groups hold no more words than as
many fragments, and so there are at least as many groups as fragments. A greater limit does not lead
to more fragments. -/
theorem wrap_fewest_fragments {measure : Measurer} {width : String → Points}
    (hwidth : ∀ text, measure text = .ok (width text)) {line : String}
    (hmono : MonotoneWidths width (words line)) (limit : Points) :
    ∃ fragments, wrap measure.width limit line = .ok fragments ∧
      (∀ cut, Cuts cut (words line) → (∀ g ∈ cut, Fits width limit g) →
        (∀ k, (cut.take k).flatten.length ≤ ((fragments.take k).flatMap words).length) ∧
        fragments.length ≤ cut.length) ∧
      ∀ limit', limit ≤ limit' → ∃ fragments',
        wrap measure.width limit' line = .ok fragments' ∧ fragments'.length ≤ fragments.length := by
  have hf := Measurer.width_eq_ok hwidth
  obtain ⟨groups, hwrap, hgreedy⟩ := exists_wrapWords_greedy hf limit (words line)
  have hline : wrap measure.width limit line = .ok (groups.map joinWords) := by
    rw [wrap_eq_wrapWords, hwrap]
  refine ⟨groups.map joinWords, hline, fun cut hcut hfits => ⟨?_, ?_⟩, ?_⟩
  · intro k
    have hgroups : ((groups.map joinWords).take k).flatMap words = (groups.take k).flatten := by
      rw [← List.map_take, List.flatMap_map, List.flatMap_congr fun g hg =>
        words_joinWords_of_cuts hgreedy.toCuts (List.mem_of_mem_take hg), List.flatMap_id']
    have hahead := hgreedy.length_take_le hmono hcut hfits (List.nil_append _).symm k
    rwa [List.length_nil, Nat.zero_add, ← hgroups] at hahead
  · rw [List.length_map]
    exact hgreedy.length_le hmono hcut hfits
  · intro limit' hle
    obtain ⟨groups', hwrap', hgreedy'⟩ := exists_wrapWords_greedy hf limit' (words line)
    refine ⟨groups'.map joinWords, by rw [wrap_eq_wrapWords, hwrap'], ?_⟩
    rw [List.length_map, List.length_map]
    exact hgreedy'.length_le hmono hgreedy.toCuts fun g hg =>
      (hgreedy.narrow g hg).fits (hgreedy.ne_nil g hg) hle

/-- The third word is too wide for any line. -/
theorem wrap_fewest_fragments_of_long_word :
    let line := "aa b  cccccc d e"
    let width : String → Points := fun text => (1 : Points) * (.ofNat text.length : Binary32)
    (∀ text, Measurer.monospace 1 text = .ok (width text)) ∧ MonotoneWidths width (words line) ∧
    wrap (Measurer.monospace 1).width 5 line
      = (.ok ["aa b", "cccccc", "d e"] : Except Error (List String)) ∧
    ∀ cut, Cuts cut (words line) → (∀ g ∈ cut, Fits width 5 g) → 3 ≤ cut.length := by
  intro line width
  have hwidth : ∀ text, Measurer.monospace 1 text = .ok (width text) := fun text => rfl
  have hmono : MonotoneWidths width (words line) :=
    monotoneWidths_monospace (by decide +kernel) (by decide +kernel) _
  have hwrap : wrap (Measurer.monospace 1).width 5 line
      = (.ok ["aa b", "cccccc", "d e"] : Except Error (List String)) := by decide +kernel
  obtain ⟨fragments, hfragments, hfewest, -⟩ := wrap_fewest_fragments hwidth hmono 5
  obtain rfl := Except.ok.inj (hwrap.symm.trans hfragments)
  exact ⟨hwidth, hmono, hwrap, fun cut hcut hfits => (hfewest cut hcut hfits).2⟩

end Folio

import Mathlib.Tactic
import Folio.Proofs.Layout.Fragments

/-!
Wrapping is greedy, and leaves no choice. In a `Greedy` cut every group stays narrower than the
limit while its words are joined, and is full when the next one starts; some words have one such cut
only (`Greedy.unique`). Nothing is assumed of the widths: they may shrink as words are joined, or be
no numbers at all.
-/

namespace Folio

variable {width : String → Points} {limit : Points} {groups groups' : List (List String)}
variable {g m ws rest : List String} {w : String}

/-! ### Greedy cuts -/

/-- The words stay narrower than the limit while they are joined one by one. The first one may be as
wide as it is. -/
def StaysNarrow (width : String → Points) (limit : Points) (g : List String) : Prop :=
  ∀ k, 2 ≤ k → k ≤ g.length → width (joinWords (g.take k)) < limit

/-- The first group has no room for the first word of the second one. -/
def Full (width : String → Points) (limit : Points) (g next : List String) : Prop :=
  ∀ w ∈ next.head?, ¬ width (joinWords g ++ " " ++ w) < limit

/-- A cut of some words into groups that stay narrow, where a group starts only if the one before it
is full. -/
structure Greedy (width : String → Points) (limit : Points) (groups : List (List String))
    (ws : List String) : Prop extends Cuts groups ws where
  narrow : ∀ g ∈ groups, StaysNarrow width limit g
  full : groups.IsChain (Full width limit)

namespace StaysNarrow

/-- A word on its own is not asked for its width. -/
lemma singleton (w : String) : StaysNarrow width limit [w] := fun k hk hle => by
  rw [List.length_singleton] at hle
  omega

lemma concat (h : StaysNarrow width limit g) (hw : width (joinWords (g ++ [w])) < limit) :
    StaysNarrow width limit (g ++ [w]) := fun k hk hle => by
  rw [List.length_append, List.length_singleton] at hle
  rcases Nat.lt_or_ge g.length k with hlt | hge
  · obtain rfl : k = (g ++ [w]).length := by
      rw [List.length_append, List.length_singleton]
      omega
    rwa [List.take_length]
  · rw [List.take_append_of_le_length hge]
    exact h k hk hge

/-- The words at the start of the group are narrow, if there are two of them. -/
lemma lt_of_start (h : StaysNarrow width limit g) (hm : m <+: g) (htwo : 2 ≤ m.length) :
    width (joinWords m) < limit := by
  rw [List.prefix_iff_eq_take.1 hm]
  exact h m.length htwo hm.length_le

end StaysNarrow

namespace Greedy

lemma nil : Greedy width limit [] [] := ⟨Cuts.nil, by simp, List.isChain_nil⟩

lemma cons (hne : g ≠ []) (hg : StaysNarrow width limit g)
    (hfull : ∀ next ∈ groups.head?, Full width limit g next) (h : Greedy width limit groups ws) :
    Greedy width limit (g :: groups) (g ++ ws) :=
  ⟨Cuts.cons hne h.toCuts, List.forall_mem_cons.2 ⟨hg, h.narrow⟩,
    List.isChain_cons.2 ⟨hfull, h.full⟩⟩

lemma tail (h : Greedy width limit (g :: groups) ws) : Greedy width limit groups groups.flatten :=
  ⟨⟨rfl, fun k hk => h.ne_nil k (List.mem_cons_of_mem g hk)⟩,
    fun k hk => h.narrow k (List.mem_cons_of_mem g hk), (List.isChain_cons.1 h.full).2⟩

/-- If there are more words behind the first group, it is full. -/
lemma not_lt (h : Greedy width limit (g :: groups) ws) (hrest : groups.flatten = w :: rest) :
    ¬ width (joinWords g ++ " " ++ w) < limit := by
  cases groups with
  | nil => simp at hrest
  | cons next groups =>
      have hne : next ≠ [] := h.ne_nil next (by simp)
      have hhead : w ∈ next.head? := by
        rw [List.flatten_cons] at hrest
        rw [← List.head?_append_of_ne_nil next hne, hrest]
        rfl
      exact (List.isChain_cons.1 h.full).1 next rfl w hhead

/-- **The first group is as long as can be**: with more words behind it, it would not stay
narrow. -/
lemma eq_nil_of_staysNarrow (h : Greedy width limit (g :: groups) ws)
    (hrest : groups.flatten = m ++ rest) (hm : StaysNarrow width limit (g ++ m)) : m = [] := by
  by_contra hne
  obtain ⟨w, m, rfl⟩ := List.exists_cons_of_ne_nil hne
  have hg : g ≠ [] := h.ne_nil g List.mem_cons_self
  have hlength : 2 ≤ (g ++ [w]).length := by
    have hpos := List.length_pos_of_ne_nil hg
    rw [List.length_append, List.length_singleton]
    omega
  have hfits := hm.lt_of_start ⟨m, by simp⟩ hlength
  rw [joinWords_concat hg] at hfits
  exact h.not_lt hrest hfits

/-- **Some words have one greedy cut only.** -/
theorem unique (h : Greedy width limit groups ws) (h' : Greedy width limit groups' ws) :
    groups = groups' := by
  induction groups generalizing ws groups' with
  | nil => exact (h'.eq_nil_iff.2 (h.eq_nil_iff.1 rfl)).symm
  | cons g groups ih =>
      cases groups' with
      | nil => exact h.eq_nil_iff.2 (h'.eq_nil_iff.1 rfl)
      | cons g' groups' =>
          have hwords : g ++ groups.flatten = g' ++ groups'.flatten :=
            h.flatten_eq.trans h'.flatten_eq.symm
          have hg : g = g' := by
            rcases List.append_eq_append_iff.1 hwords with ⟨m, rfl, hrest⟩ | ⟨m, rfl, hrest⟩
            · have hnil := h.eq_nil_of_staysNarrow hrest (h'.narrow _ List.mem_cons_self)
              rw [hnil, List.append_nil]
            · have hnil := h'.eq_nil_of_staysNarrow hrest (h.narrow _ List.mem_cons_self)
              rw [hnil, List.append_nil]
          subst hg
          have hrest : groups.flatten = groups'.flatten := List.append_cancel_left hwords
          rw [ih h.tail (hrest ▸ h'.tail)]

end Greedy

/-! ### Wrapping -/

/-- Where measuring succeeds, no error names the text. -/
lemma Measurer.width_eq_ok {measure : Measurer} (h : ∀ text, measure text = .ok (width text))
    (text : String) : measure.width text = .ok (width text) := by
  rw [Measurer.width, h]
  rfl

section Wrapping

variable {f : String → Except Error Points} (hf : ∀ text, f text = .ok (width text))
include hf

/-- **Filling makes a greedy cut** of the words of the open group and those to come. The first group
starts with the open one. -/
lemma exists_fill_greedy (hne : ws ≠ []) (hws : StaysNarrow width limit ws) (rest : List String) :
    ∃ g groups, fill f limit (joinWords ws) rest = .ok ((g :: groups).map joinWords) ∧
      Greedy width limit (g :: groups) (ws ++ rest) ∧ ws <+: g := by
  induction rest generalizing ws with
  | nil => exact ⟨ws, [], rfl, .cons hne hws (by simp) .nil, List.prefix_rfl⟩
  | cons w rest ih =>
      have hjoined := hf (joinWords ws ++ " " ++ w)
      by_cases hfits : width (joinWords ws ++ " " ++ w) < limit
      · -- the word joins the open group
        have hjoins : StaysNarrow width limit (ws ++ [w]) :=
          hws.concat (by rwa [joinWords_concat hne])
        obtain ⟨g, groups, hfill, hgreedy, hprefix⟩ := ih (by simp) hjoins
        rw [joinWords_concat hne] at hfill
        exact ⟨g, groups, fill_cons_eq_ok_iff.2 ⟨_, hjoined, .inl ⟨hfits, hfill⟩⟩,
          by simpa using hgreedy, (List.prefix_append ws [w]).trans hprefix⟩
      · -- the open group is full, and the word starts the next one
        obtain ⟨g, groups, hfill, hgreedy, ⟨m, rfl⟩⟩ :=
          ih (List.cons_ne_nil w []) (StaysNarrow.singleton w)
        rw [joinWords_singleton] at hfill
        have hfull : ∀ next ∈ (([w] ++ m) :: groups).head?, Full width limit ws next := by
          simpa [Full] using hfits
        exact ⟨ws, _, fill_cons_eq_ok_iff.2 ⟨_, hjoined, .inr ⟨hfits, _, hfill, rfl⟩⟩,
          hgreedy.cons hne hws hfull, List.prefix_rfl⟩

lemma exists_wrapWords_greedy (limit : Points) (ws : List String) :
    ∃ groups, wrapWords f limit ws = .ok (groups.map joinWords) ∧
      Greedy width limit groups ws := by
  cases ws with
  | nil => exact ⟨[], rfl, .nil⟩
  | cons w rest =>
      have hfirst : StaysNarrow width limit [w] := .singleton w
      obtain ⟨g, groups, hfill, hgreedy, -⟩ :=
        exists_fill_greedy hf (List.cons_ne_nil w []) hfirst rest
      rw [joinWords_singleton] at hfill
      exact ⟨g :: groups, wrapWords_cons_eq_ok_iff.2 ⟨⟨_, hf w⟩, hfill⟩, hgreedy⟩

end Wrapping

/-- The words of a line are still the words of their group when they are joined. -/
lemma words_joinWords_of_cuts {line : String} (h : Cuts groups (words line)) (hg : g ∈ groups) :
    words (joinWords g) = g := by
  have hwords : words (joinWords g) = (splitWords (joinWords g)).filter (· ≠ "") := by
    rw [words, splitWords, List.filter_map]
    congr 1
    refine List.filter_congr fun part _ => decide_eq_decide.2 (not_congr ?_)
    rw [← String.toList_inj, String.toList_ofList, String.toList_empty]
  have hspace : ∀ w ∈ g, ' ' ∉ w.toList := fun w hw => space_notMem_of_mem_words (h.mem hg hw)
  rw [hwords, splitWords_joinWords (h.ne_nil g hg) hspace, List.filter_eq_self]
  intro w hw
  simpa using ne_empty_of_mem_words (h.mem hg hw)

/-- **Wrapping is greedy**, and it is the only greedy way to cut a line.

If every text can be measured, the fragments of a line are the joined groups of the one cut of its
words such that every group stays narrower than the limit while its words are joined, and such that
every group but the last would not be narrower than the limit with the first word of the next one.
So a fragment of two words or more is narrower than the limit, and a line without words has no
fragments. -/
theorem wrap_unique_greedy {measure : Measurer} {width : String → Points}
    (hwidth : ∀ text, measure text = .ok (width text)) (limit : Points) (line : String) :
    ∃ fragments, wrap measure.width limit line = .ok fragments ∧
      (∀ other, (∃ groups, Greedy width limit groups (words line) ∧ other = groups.map joinWords) ↔
        other = fragments) ∧
      (∀ fragment ∈ fragments, 2 ≤ (words fragment).length → width fragment < limit) ∧
      (words line = [] → fragments = []) := by
  have hf := Measurer.width_eq_ok hwidth
  obtain ⟨groups, hwrap, hgreedy⟩ := exists_wrapWords_greedy hf limit (words line)
  refine ⟨groups.map joinWords, by rw [wrap_eq_wrapWords, hwrap], fun other => ⟨?_, ?_⟩, ?_, ?_⟩
  · rintro ⟨groups', hgreedy', rfl⟩
    rw [hgreedy.unique hgreedy']
  · rintro rfl
    exact ⟨groups, hgreedy, rfl⟩
  · intro fragment hfragment htwo
    obtain ⟨g, hg, rfl⟩ := List.mem_map.1 hfragment
    rw [words_joinWords_of_cuts hgreedy.toCuts hg] at htwo
    exact (hgreedy.narrow g hg).lt_of_start List.prefix_rfl htwo
  · intro hnil
    rw [List.map_eq_nil_iff, hgreedy.eq_nil_iff, hnil]

/-- The letter `b` takes width away, so that the first word is too wide on its own, but not with the
second one. -/
theorem wrap_unique_greedy_of_shrinking_widths :
    let width : String → Points := fun text =>
      text.toList.foldl (fun sum c => sum + if c = 'b' then -6 else 3) 0
    let measure : Measurer := .ofTable fun c => if c = 'b' then -6 else 3
    (∀ text, measure text = .ok (width text)) ∧
    wrap measure.width 5 " aa b  c d" = (.ok ["aa b", "c", "d"] : Except Error (List String)) ∧
    ∀ other, (∃ groups, Greedy width 5 groups (words " aa b  c d") ∧
      other = groups.map joinWords) ↔ other = ["aa b", "c", "d"] := by
  intro width measure
  have hwidth : ∀ text, measure text = .ok (width text) := fun text => rfl
  have hwrap : wrap measure.width 5 " aa b  c d"
      = (.ok ["aa b", "c", "d"] : Except Error (List String)) := by decide +kernel
  obtain ⟨fragments, hfragments, hunique, -⟩ := wrap_unique_greedy hwidth 5 " aa b  c d"
  obtain rfl := Except.ok.inj (hwrap.symm.trans hfragments)
  exact ⟨hwidth, hwrap, hunique⟩

end Folio

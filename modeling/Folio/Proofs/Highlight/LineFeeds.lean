import Mathlib.Tactic
import Folio.Highlight.Basic
import Folio.Proofs.Highlight.Occurrences

/-!
Patterns at a line feed.

* `Pattern.LineBound`: a pattern that no match takes over a line feed, and that does not ask where
  the text ends. `Pattern.ends_followedBy`: a line feed behind the text does not change its ends.
* `Pattern.ends_behindLines`: no pattern tells the start of a line from the start of the text.
* `Pattern.occurrences_append_newline`: so two texts with a line feed between them are searched one
  by one.
-/

namespace Folio

open Text

lemma isWord_newline : isWord '\n' = false := by decide +kernel

/-! ### More text behind -/

namespace Cursor

/-- The cursor when more text follows. -/
def followedBy (tail : List Char) (c : Cursor) : Cursor := { c with rest := c.rest ++ tail }

@[simp] lemma followedBy_between (pre rest tail : List Char) :
    (between pre rest).followedBy tail = between pre (rest ++ tail) := rfl

variable {inClass : Char → Bool} {tail : List Char}

/-- Over a class without the line feed, a step before one is a step at the end of the text. -/
lemma step?_followedBy (h : inClass '\n' = false) (c : Cursor) :
    (c.followedBy ('\n' :: tail)).step? inClass
      = (c.step? inClass).map (followedBy ('\n' :: tail)) := by
  obtain ⟨offset, before, rest⟩ := c
  cases rest with
  | nil => simp [followedBy, step?, h]
  | cons x rest => by_cases hx : inClass x = true <;> simp [followedBy, step?, hx]

lemma skip?_followedBy {word : List Char} (h : '\n' ∉ word) (c : Cursor) :
    (c.followedBy ('\n' :: tail)).skip? word = (c.skip? word).map (followedBy ('\n' :: tail)) := by
  induction word generalizing c with
  | nil => rfl
  | cons x word ih =>
      obtain ⟨hx, hword⟩ := not_or.1 (List.mem_cons.not.1 h)
      have hclass : ('\n' == x) = false := beq_eq_false_iff_ne.2 hx
      rw [skip?, skip?, step?_followedBy hclass]
      cases c.step? (· == x) with
      | none => rfl
      | some d => exact ih hword d

lemma stops_followedBy (h : inClass '\n' = false) (offset : Nat) (before : Option Char)
    (rest : List Char) :
    stops inClass offset before (rest ++ '\n' :: tail)
      = (stops inClass offset before rest).map (followedBy ('\n' :: tail)) := by
  induction rest generalizing offset before with
  | nil => simp [stops, h, followedBy]
  | cons x rest ih =>
      by_cases hx : inClass x = true
      · simp [stops, hx, ih, followedBy]
      · simp [stops, hx, followedBy]

/-- No word goes on at a line feed, as at the end of the text. -/
lemma atBoundary_followedBy (c : Cursor) :
    (c.followedBy ('\n' :: tail)).atBoundary = c.atBoundary := by
  obtain ⟨offset, before, rest⟩ := c
  cases rest with
  | nil => simp [followedBy, atBoundary, isWord_newline]
  | cons x rest => rfl

end Cursor

namespace Pattern

/-- No match of the pattern goes over a line feed, and the pattern takes the end of a line for the
end of the text. -/
def LineBound : Pattern → Prop
  | empty | never | boundary | lineEnd => True
  | char inClass | greedy inClass | reluctant inClass => inClass '\n' = false
  | literal word => '\n' ∉ word
  | seq first second | alt first second => first.LineBound ∧ second.LineBound
  | textEnd => False

/-- **Before a line feed**, a pattern that is bound to its line ends where it does at the end of the
text. -/
theorem ends_followedBy {p : Pattern} (hp : p.LineBound) (tail : List Char) (c : Cursor) :
    p.ends (c.followedBy ('\n' :: tail)) = (p.ends c).map (Cursor.followedBy ('\n' :: tail)) := by
  induction p generalizing c with
  | empty | never => rfl
  | char inClass =>
      rw [ends, ends, Cursor.step?_followedBy hp]
      cases c.step? inClass <;> rfl
  | literal word =>
      rw [ends, ends, Cursor.skip?_followedBy hp]
      cases c.skip? word <;> rfl
  | seq first second ihFirst ihSecond =>
      rw [ends, ends, ihFirst hp.1, List.flatMap_map, List.map_flatMap]
      exact List.flatMap_congr fun d _ => ihSecond hp.2 d
  | alt first second ihFirst ihSecond =>
      rw [ends, ends, ihFirst hp.1, ihSecond hp.2, List.map_append]
  | greedy inClass =>
      rw [ends, ends, List.map_reverse]
      exact congrArg List.reverse (Cursor.stops_followedBy hp _ _ _)
  | reluctant inClass => exact Cursor.stops_followedBy hp _ _ _
  | boundary =>
      rw [ends, ends, Cursor.atBoundary_followedBy, apply_ite (List.map _)]
      rfl
  | lineEnd =>
      obtain ⟨offset, before, rest⟩ := c
      cases rest with
      | nil => rfl
      | cons x rest =>
          rw [ends, ends, apply_ite (List.map _)]
          rfl
  | textEnd => exact hp.elim

end Pattern

/-! ### Lines before -/

namespace Cursor

/-- The cursor when lines of `size` bytes come before. -/
def behindLines (size : Nat) (c : Cursor) : Cursor :=
  ⟨size + c.offset, c.before.or (some '\n'), c.rest⟩

lemma behindLines_between (lines pre rest : List Char) :
    (between pre rest).behindLines (byteCount (lines ++ ['\n']))
      = between (lines ++ ['\n'] ++ pre) rest := by
  rw [behindLines, between, between, byteCount_append (lines ++ ['\n']), List.getLast?_append,
    List.getLast?_concat]

variable {inClass : Char → Bool} {size : Nat}

lemma step?_behindLines (c : Cursor) :
    (c.behindLines size).step? inClass = (c.step? inClass).map (behindLines size) := by
  obtain ⟨offset, before, rest⟩ := c
  cases rest with
  | nil => rfl
  | cons x rest => by_cases hx : inClass x = true <;> simp [behindLines, step?, hx, Nat.add_assoc]

lemma skip?_behindLines (word : List Char) (c : Cursor) :
    (c.behindLines size).skip? word = (c.skip? word).map (behindLines size) := by
  induction word generalizing c with
  | nil => rfl
  | cons x word ih =>
      rw [skip?, skip?, step?_behindLines]
      cases c.step? (· == x) with
      | none => rfl
      | some d => exact ih d

lemma stops_behindLines (offset : Nat) (before : Option Char) (rest : List Char) :
    stops inClass (size + offset) (before.or (some '\n')) rest
      = (stops inClass offset before rest).map (behindLines size) := by
  induction rest generalizing offset before with
  | nil => rfl
  | cons x rest ih =>
      have hnext : stops inClass (size + offset + x.utf8Size) (some x) rest
          = (stops inClass (offset + x.utf8Size) (some x) rest).map (behindLines size) := by
        rw [Nat.add_assoc]
        exact ih (offset + x.utf8Size) (some x)
      by_cases hx : inClass x = true
      · simp [stops, hx, hnext, behindLines]
      · simp [stops, hx, behindLines]

/-- No word reaches over a line feed, as none comes before the text. -/
lemma atBoundary_behindLines (c : Cursor) : (c.behindLines size).atBoundary = c.atBoundary := by
  obtain ⟨offset, before, rest⟩ := c
  cases before with
  | none => simp [behindLines, atBoundary, isWord_newline]
  | some x => rfl

end Cursor

namespace Pattern

/-- **Behind some lines**, a pattern ends where it does at the start of the text. -/
theorem ends_behindLines (p : Pattern) (size : Nat) (c : Cursor) :
    p.ends (c.behindLines size) = (p.ends c).map (Cursor.behindLines size) := by
  induction p generalizing c with
  | empty | never => rfl
  | char inClass =>
      rw [ends, ends, Cursor.step?_behindLines]
      cases c.step? inClass <;> rfl
  | literal word =>
      rw [ends, ends, Cursor.skip?_behindLines]
      cases c.skip? word <;> rfl
  | seq first second ihFirst ihSecond =>
      rw [ends, ends, ihFirst, List.flatMap_map, List.map_flatMap]
      exact List.flatMap_congr fun d _ => ihSecond d
  | alt first second ihFirst ihSecond =>
      rw [ends, ends, ihFirst, ihSecond, List.map_append]
  | greedy inClass =>
      rw [ends, ends, List.map_reverse]
      exact congrArg List.reverse (Cursor.stops_behindLines _ _ _)
  | reluctant inClass => exact Cursor.stops_behindLines _ _ _
  | boundary =>
      rw [ends, ends, Cursor.atBoundary_behindLines, apply_ite (List.map _)]
      rfl
  | lineEnd | textEnd =>
      rw [ends, ends, apply_ite (List.map _)]
      rfl

variable {p : Pattern} {lines pre mid post rest tail : List Char} {found later : List ByteRange}

/-- A preferred match behind some lines is one at the start of the text, and the other way round. -/
lemma end?_behindLines_iff :
    p.end? (.between (lines ++ ['\n'] ++ pre) (mid ++ post))
        = some (.between (lines ++ ['\n'] ++ pre ++ mid) post) ↔
      p.end? (.between pre (mid ++ post)) = some (.between (pre ++ mid) post) := by
  have hend : p.end? (.between (lines ++ ['\n'] ++ pre) (mid ++ post))
      = (p.end? (.between pre (mid ++ post))).map
          (Cursor.behindLines (byteCount (lines ++ ['\n']))) := by
    rw [← Cursor.behindLines_between, end?, ends_behindLines, List.head?_map, end?]
  rw [hend]
  constructor
  · intro h
    obtain ⟨d, hd, hbehind⟩ := Option.map_eq_some_iff.1 h
    obtain ⟨mid', post', htext, -, rfl⟩ := exists_matches_of_end? hd
    obtain rfl : post' = post := congrArg Cursor.rest hbehind
    obtain rfl := List.append_cancel_right htext
    exact hd
  · intro h
    rw [h, Option.map_some, Cursor.behindLines_between, ← List.append_assoc]

lemma LineBound.end?_append_newline (hp : p.LineBound) :
    p.end? (.between pre (rest ++ '\n' :: tail))
      = (p.end? (.between pre rest)).map (Cursor.followedBy ('\n' :: tail)) := by
  rw [← Cursor.followedBy_between, end?, ends_followedBy hp, List.head?_map, end?]

/-! ### Sweeps across a line feed -/

/-- The pattern prefers no match before `rest`, unless perhaps an empty one. -/
def MissesAt (p : Pattern) (pre rest : List Char) : Prop :=
  ∀ mid post, mid ≠ [] → rest = mid ++ post →
    p.end? (.between pre rest) ≠ some (.between (pre ++ mid) post)

lemma missesAt_nil (p : Pattern) (pre : List Char) : p.MissesAt pre [] :=
  fun _ _ hne hnil _ => hne (List.append_eq_nil_iff.1 hnil.symm).1

/-- Where a pattern that is bound to its line has no match, a line feed behind the text does not
give it one. -/
lemma LineBound.missesAt_append (hp : p.LineBound) (h : p.MissesAt pre rest) :
    p.MissesAt pre (rest ++ '\n' :: tail) := by
  intro mid post hne _ hend
  rw [hp.end?_append_newline] at hend
  obtain ⟨d, hd, hfollowed⟩ := Option.map_eq_some_iff.1 hend
  obtain ⟨mid', post', rfl, -, rfl⟩ := exists_matches_of_end? hd
  have hpre : byteCount (pre ++ mid') = byteCount (pre ++ mid) :=
    congrArg Cursor.offset hfollowed
  refine h mid' post' ?_ rfl hd
  rintro rfl
  have hpos := byteCount_pos hne
  simp only [byteCount_append, byteCount_nil] at hpre
  omega

/-- A preferred match of a pattern that is bound to its line stays so before a line feed. -/
lemma LineBound.end?_append (hp : p.LineBound)
    (hend : p.end? (.between pre (mid ++ post)) = some (.between (pre ++ mid) post)) :
    p.end? (.between pre (mid ++ (post ++ '\n' :: tail)))
      = some (.between (pre ++ mid) (post ++ '\n' :: tail)) := by
  rw [← List.append_assoc, hp.end?_append_newline, hend, Option.map_some,
    Cursor.followedBy_between]

/-- A sweep of a text goes on into what follows, if the pattern gets no match where it had none, and
keeps those that were found. -/
lemma Sweep.append (h : p.Sweep pre rest found)
    (hmiss : ∀ {pre rest}, p.MissesAt pre rest → p.MissesAt pre (rest ++ tail))
    (hhit : ∀ {a mid post}, pre ++ rest = a ++ (mid ++ post) →
      ⟨byteCount a, byteCount (a ++ mid)⟩ ∈ found →
      p.end? (.between a (mid ++ post)) = some (.between (a ++ mid) post) →
        p.end? (.between a (mid ++ (post ++ tail))) = some (.between (a ++ mid) (post ++ tail)))
    (hlater : p.Sweep (pre ++ rest) tail later) :
    p.Sweep pre (rest ++ tail) (found ++ later) := by
  induction h with
  | stop pre => simpa using hlater
  | @skip pre rest x found hnone _ ih =>
      rw [List.append_cons] at hhit hlater
      exact .skip (hmiss hnone) (ih hhit hlater)
  | @hit pre mid post found hne hend _ ih =>
      have hkept := hhit rfl List.mem_cons_self hend
      rw [← List.append_assoc] at hhit hlater
      rw [List.append_assoc]
      exact .hit hne hkept (ih (fun htext hr => hhit htext (List.mem_cons_of_mem _ hr)) hlater)

end Pattern

/-- A stretch when `size` more bytes come before. -/
def ByteRange.behind (size : Nat) (r : ByteRange) : ByteRange := ⟨size + r.start, size + r.stop⟩

namespace Pattern

variable {p : Pattern} {pre rest : List Char} {found : List ByteRange}

/-- A sweep behind some lines finds what it finds at the start of the text. -/
lemma Sweep.behindLines (h : p.Sweep pre rest found) (lines : List Char) :
    p.Sweep (lines ++ ['\n'] ++ pre) rest
      (found.map (ByteRange.behind (byteCount (lines ++ ['\n'])))) := by
  induction h with
  | stop pre => exact .stop _
  | @skip pre rest x found hnone _ ih =>
      refine .skip (fun mid post hne hrest hend => hnone mid post hne hrest ?_) ?_
      · rw [hrest] at hend ⊢
        exact end?_behindLines_iff.1 hend
      · rwa [List.append_assoc]
  | @hit pre mid post found hne hend _ ih =>
      have hstretch : (⟨byteCount pre, byteCount (pre ++ mid)⟩ : ByteRange).behind
            (byteCount (lines ++ ['\n']))
          = ⟨byteCount (lines ++ ['\n'] ++ pre), byteCount (lines ++ ['\n'] ++ pre ++ mid)⟩ := by
        simp only [ByteRange.behind, byteCount_append, Nat.add_assoc]
      rw [List.map_cons, hstretch]
      refine .hit hne (end?_behindLines_iff.2 hend) ?_
      rwa [List.append_assoc _ pre mid]

/-- **What is found in two texts with a line feed between them** is what is found in each, if the
pattern gets no match in the first one and loses none that it had. -/
theorem occurrences_append_newline {a b : List Char}
    (hmiss : ∀ {pre rest}, p.MissesAt pre rest → p.MissesAt pre (rest ++ '\n' :: b))
    (hhit : ∀ {pre mid post}, a = pre ++ (mid ++ post) →
      ⟨byteCount pre, byteCount (pre ++ mid)⟩ ∈ p.occurrences a →
      p.end? (.between pre (mid ++ post)) = some (.between (pre ++ mid) post) →
        p.end? (.between pre (mid ++ (post ++ '\n' :: b)))
          = some (.between (pre ++ mid) (post ++ '\n' :: b))) :
    p.occurrences (a ++ '\n' :: b) = p.occurrences a ++
      (p.occurrences b).map (ByteRange.behind (byteCount (a ++ ['\n']))) := by
  have hb : p.Sweep (a ++ ['\n']) b
      ((p.occurrences b).map (ByteRange.behind (byteCount (a ++ ['\n'])))) := by
    have hbehind := (sweep_occurrences p b).behindLines a
    rwa [List.append_nil] at hbehind
  -- nothing starts at the line feed, since nothing starts at the end of the first text
  have hnewline : p.MissesAt a ('\n' :: b) := hmiss (missesAt_nil p a)
  have hsweep : p.Sweep [] (a ++ '\n' :: b) _ :=
    (sweep_occurrences p a).append hmiss hhit (.skip hnewline hb)
  exact hsweep.eq_occurrencesFrom.symm

end Pattern

end Folio

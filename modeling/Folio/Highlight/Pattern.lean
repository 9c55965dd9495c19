import Folio.Text.Utf8
import Folio.Text.Word

/-!
A small pattern language with preferences. A pattern stands at a cursor in a text and may end at
several places. `Pattern.ends` lists them in order of preference: the first alternative before the
second, the longest run first for `greedy` and the shortest first for `reluctant`. The end of a
match is the first of the list, and `Pattern.occurrences` sweeps a text from the left for matches
that do not overlap.
-/

namespace Folio

/-- A stretch of a text, from the byte `start` up to the byte `stop`, which is not part of it. -/
structure ByteRange where
  start : Nat
  stop : Nat
  deriving DecidableEq, Repr

/-- A place between two characters of a text. -/
structure Cursor where
  /-- Number of bytes before the place. -/
  offset : Nat
  /-- The character before the place, if there is one. -/
  before : Option Char
  /-- The text from the place on. -/
  rest : List Char

namespace Cursor

/-- The start of a text. -/
def start (text : List Char) : Cursor := ⟨0, none, text⟩

/-- Number of bytes after the place. -/
def remaining (c : Cursor) : Nat := Text.byteCount c.rest

/-- Number of bytes of the whole text. -/
def size (c : Cursor) : Nat := c.offset + c.remaining

/-- The place after the next character, if that is in a class. -/
def step? (inClass : Char → Bool) (c : Cursor) : Option Cursor :=
  match c.rest with
  | [] => none
  | x :: rest => if inClass x then some ⟨c.offset + x.utf8Size, some x, rest⟩ else none

/-- The place after the next character. -/
def next? (c : Cursor) : Option Cursor := c.step? fun _ => true

/-- The place after the given characters, if they come next. -/
def skip? (c : Cursor) : List Char → Option Cursor
  | [] => some c
  | x :: word => do skip? (← c.step? (· == x)) word

/-- Is exactly one of the two neighbours of the place a word character? -/
def atBoundary (c : Cursor) : Bool :=
  c.before.any Text.isWord != c.rest.head?.any Text.isWord

/-- The places that a run of characters of a class reaches, the place itself first. -/
def stops (inClass : Char → Bool) (offset : Nat) (before : Option Char) :
    List Char → List Cursor
  | [] => [⟨offset, before, []⟩]
  | c :: rest =>
    ⟨offset, before, c :: rest⟩ ::
      if inClass c then stops inClass (offset + c.utf8Size) (some c) rest else []

theorem size_of_step? {inClass : Char → Bool} {c d : Cursor} (h : c.step? inClass = some d) :
    d.size = c.size := by
  obtain ⟨offset, before, rest⟩ := c
  cases rest with
  | nil => simp [step?] at h
  | cons x rest =>
    simp only [step?] at h
    split at h
    · rw [← Option.some.inj h]
      simp only [size, remaining, Text.byteCount]
      omega
    · simp at h

theorem remaining_of_step? {inClass : Char → Bool} {c d : Cursor}
    (h : c.step? inClass = some d) : d.remaining < c.remaining := by
  obtain ⟨offset, before, rest⟩ := c
  cases rest with
  | nil => simp [step?] at h
  | cons x rest =>
    simp only [step?] at h
    split at h
    · rw [← Option.some.inj h]
      have hx := x.utf8Size_pos
      simp only [remaining, Text.byteCount]
      omega
    · simp at h

theorem size_of_skip? {word : List Char} {c d : Cursor} (h : c.skip? word = some d) :
    d.size = c.size := by
  induction word generalizing c with
  | nil => rw [← Option.some.inj h]
  | cons x word ih =>
    obtain ⟨e, he, hd⟩ := Option.bind_eq_some_iff.1 h
    rw [ih hd, size_of_step? he]

theorem size_of_mem_stops {inClass : Char → Bool} {offset : Nat} {before : Option Char}
    {text : List Char} {d : Cursor} (h : d ∈ stops inClass offset before text) :
    d.size = (⟨offset, before, text⟩ : Cursor).size := by
  induction text generalizing offset before with
  | nil =>
    rw [stops, List.mem_singleton] at h
    rw [h]
  | cons x rest ih =>
    rw [stops, List.mem_cons] at h
    rcases h with rfl | h
    · rfl
    · split at h
      · rw [ih h]
        simp only [size, remaining, Text.byteCount]
        omega
      · simp at h

end Cursor

/-- A pattern of a text. -/
inductive Pattern where
  /-- The empty text. -/
  | empty
  /-- No text at all. -/
  | never
  /-- One character of a class. -/
  | char (inClass : Char → Bool)
  /-- The given characters. -/
  | literal (word : List Char)
  /-- One pattern after the other. -/
  | seq (first second : Pattern)
  /-- One of two patterns, the first one preferred. -/
  | alt (first second : Pattern)
  /-- A run of a class, as long as possible. -/
  | greedy (inClass : Char → Bool)
  /-- A run of a class, as short as possible. -/
  | reluctant (inClass : Char → Bool)
  /-- The edge of a word. -/
  | boundary
  /-- The place before a line feed, or the end of the text. -/
  | lineEnd
  /-- The end of the text. -/
  | textEnd

namespace Pattern

/-- The places where the pattern may end, in order of preference. -/
def ends : Pattern → Cursor → List Cursor
  | empty, c => [c]
  | never, _ => []
  | char inClass, c => (c.step? inClass).toList
  | literal word, c => (c.skip? word).toList
  | seq first second, c => (first.ends c).flatMap second.ends
  | alt first second, c => first.ends c ++ second.ends c
  | greedy inClass, c => (Cursor.stops inClass c.offset c.before c.rest).reverse
  | reluctant inClass, c => Cursor.stops inClass c.offset c.before c.rest
  | boundary, c => if c.atBoundary then [c] else []
  | lineEnd, c => if c.rest.head?.all (· == '\n') then [c] else []
  | textEnd, c => if c.rest.isEmpty then [c] else []

/-- Every end of a pattern lies in the text of the cursor. -/
theorem size_of_mem_ends {p : Pattern} {c d : Cursor} (h : d ∈ p.ends c) : d.size = c.size := by
  induction p generalizing c d with
  | empty =>
    rw [ends, List.mem_singleton] at h
    rw [h]
  | never => simp [ends] at h
  | char inClass => exact Cursor.size_of_step? (Option.mem_toList.1 h)
  | literal word => exact Cursor.size_of_skip? (Option.mem_toList.1 h)
  | seq first second ihFirst ihSecond =>
    obtain ⟨e, he, hd⟩ := List.mem_flatMap.1 h
    rw [ihSecond hd, ihFirst he]
  | alt first second ihFirst ihSecond =>
    exact (List.mem_append.1 h).elim ihFirst ihSecond
  | greedy inClass => exact Cursor.size_of_mem_stops (List.mem_reverse.1 h)
  | reluctant inClass => exact Cursor.size_of_mem_stops h
  | boundary =>
    rw [ends] at h
    split at h
    · rw [List.mem_singleton.1 h]
    · simp at h
  | lineEnd =>
    rw [ends] at h
    split at h
    · rw [List.mem_singleton.1 h]
    · simp at h
  | textEnd =>
    rw [ends] at h
    split at h
    · rw [List.mem_singleton.1 h]
    · simp at h

/-- The preferred end of the pattern at a cursor. -/
def end? (p : Pattern) (c : Cursor) : Option Cursor := (p.ends c).head?

/-- A match that is not empty leaves fewer bytes than there were before it. -/
theorem remaining_of_end? {p : Pattern} {c d : Cursor} (h : p.end? c = some d)
    (hlt : c.offset < d.offset) : d.remaining < c.remaining := by
  have hsize : d.size = c.size := size_of_mem_ends (List.mem_of_mem_head? h)
  simp only [Cursor.size] at hsize
  omega

/-- The matches from a cursor on: at each place the preferred one, if it is not empty, and the
next one no earlier than where it ends. -/
def occurrencesFrom (p : Pattern) (c : Cursor) : List ByteRange :=
  match _hnext : c.next? with
  | none => []
  | some d =>
    match _hend : p.end? c with
    | none => occurrencesFrom p d
    | some e =>
      if _hlt : c.offset < e.offset then ⟨c.offset, e.offset⟩ :: occurrencesFrom p e
      else occurrencesFrom p d
  termination_by c.remaining
  decreasing_by
    · exact Cursor.remaining_of_step? _hnext
    · exact remaining_of_end? _hend _hlt
    · exact Cursor.remaining_of_step? _hnext

/-- The leftmost matches of a pattern in a text that do not overlap, in order. -/
def occurrences (p : Pattern) (text : List Char) : List ByteRange := p.occurrencesFrom (.start text)

/-! ### Common forms -/

/-- One of several patterns, the earlier ones preferred. -/
def anyOf (patterns : List Pattern) : Pattern := patterns.foldr alt never

/-- A pattern or nothing, the pattern preferred. -/
def optional (p : Pattern) : Pattern := alt p empty

/-- One pattern after the other, for a list of them. -/
def inOrder (patterns : List Pattern) : Pattern := patterns.foldr seq empty

end Pattern

end Folio

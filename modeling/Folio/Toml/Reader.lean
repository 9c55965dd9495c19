/-!
Readers of a settings file. A `Reader` takes characters off the front of a text, or fails; where
two readers are tried in turn the second one starts where the first one did.
-/

namespace Folio

namespace Toml

/-- Takes something off the front of a text. -/
abbrev Reader := StateT (List Char) Option

namespace Reader

/-- The next character, which stays where it is. -/
def peek : Reader (Option Char) := fun text => some (text.head?, text)

/-- The next character, if it is in a class. -/
def char (inClass : Char → Bool) : Reader Char
  | c :: text => if inClass c then some (c, text) else none
  | [] => none

/-- The given characters. -/
def word (chars : List Char) : Reader Unit := fun text =>
  if chars.isPrefixOf text then some ((), text.drop chars.length) else none

/-- The longest run of characters of a class. -/
def run (inClass : Char → Bool) : Reader (List Char) := fun text =>
  some (text.span inClass)

/-- The end of the text. -/
def atEnd : Reader Unit := fun text => if text.isEmpty then some ((), text) else none

/-- Repeats a reader until it fails, at most `times` times. -/
def repeatUpTo {α : Type} (reader : Reader α) : Nat → Reader (List α)
  | 0 => pure []
  | times + 1 => do
    match ← optional reader with
    | none => return []
    | some first => return first :: (← repeatUpTo reader times)

/-- Repeats a reader until it fails. The reader has to take something off the text each time. -/
def many {α : Type} (reader : Reader α) : Reader (List α) := do
  repeatUpTo reader (← get).length

/-- Things with commas between them, at least one. -/
def separated {α : Type} (reader : Reader α) : Reader (List α) := do
  let first ← reader
  return first :: (← many (do word [',']; reader))

/-! ### Blanks, comments and ends of lines -/

/-- Is the character a space or a tab? -/
def isBlank (c : Char) : Bool := c == ' ' || c == '\t'

/-- May the character stand in a comment? Controls other than the tab may not. -/
def isPlain (c : Char) : Bool := c == '\t' || ' ' ≤ c && c != '\x7f'

/-- Spaces and tabs. -/
def blanks : Reader Unit := discard (run isBlank)

/-- A line feed, or a carriage return and a line feed. -/
def newline : Reader Unit := word ['\n'] <|> word ['\r', '\n']

/-- The end of a line, which may be the end of the text. -/
def lineEnd : Reader Unit := newline <|> atEnd

/-- A comment up to the end of its line. -/
def comment : Reader Unit := do
  word ['#']
  discard (run isPlain)

/-- The rest of a line, which holds nothing but a comment. -/
def lineRest : Reader Unit := do
  blanks
  discard (optional comment)
  lineEnd

/-- Blanks, comments and ends of lines. -/
def gaps : Reader Unit :=
  discard (many (discard (char isBlank) <|> newline <|> comment))

end Reader

end Toml

end Folio

import Folio.Toml.Reader

/-!
Quoted texts and keys of a settings file.

Basic texts stand in double quotes and have escapes, literal texts stand in single quotes and have
none. Both may run over several lines in three quotes. A key is a path of parts between dots.
-/

namespace Folio

namespace Toml

/-! ### Escapes -/

/-- The value of a hexadecimal digit of either case. -/
def hexDigit? (c : Char) : Option Nat :=
  if c.isDigit then some (c.toNat - '0'.toNat)
  else if 'a' ≤ c ∧ c ≤ 'f' then some (c.toNat - 'a'.toNat + 10)
  else if 'A' ≤ c ∧ c ≤ 'F' then some (c.toNat - 'A'.toNat + 10)
  else none

/-- The character that some hexadecimal digits name, if there is one. -/
def hexChar? (digits : List Char) : Option Char := do
  let code ← digits.foldlM (fun n c => return n * 16 + (← hexDigit? c)) 0
  if code.isValidChar then some (Char.ofNat code) else none

/-- The character that a letter behind a backslash stands for. -/
def escape? : Char → Option Char
  | 'b' => some '\x08'
  | 't' => some '\t'
  | 'n' => some '\n'
  | 'f' => some '\x0c'
  | 'r' => some '\r'
  | '"' => some '"'
  | '\\' => some '\\'
  | _ => none

/-! ### Texts on one line -/

/-- A basic text from behind its opening quote on. -/
def basicBody : Reader (List Char)
  | '"' :: rest => some ([], rest)
  | '\\' :: 'u' :: a :: b :: c :: d :: rest => do
    let char ← hexChar? [a, b, c, d]
    let (body, rest) ← basicBody rest
    return (char :: body, rest)
  | '\\' :: 'U' :: a :: b :: c :: d :: e :: f :: g :: h :: rest => do
    let char ← hexChar? [a, b, c, d, e, f, g, h]
    let (body, rest) ← basicBody rest
    return (char :: body, rest)
  | '\\' :: c :: rest => do
    let char ← escape? c
    let (body, rest) ← basicBody rest
    return (char :: body, rest)
  | c :: rest =>
    if Reader.isPlain c && c != '\\' then do
      let (body, rest) ← basicBody rest
      return (c :: body, rest)
    else none
  | [] => none

/-- A text in double quotes. -/
def basicText : Reader (List Char) := do
  Reader.word ['"']
  basicBody

/-- A text in single quotes. -/
def literalText : Reader (List Char) := do
  Reader.word ['\'']
  let body ← Reader.run fun c => Reader.isPlain c && c != '\''
  Reader.word ['\'']
  return body

/-! ### Texts over several lines -/

/-- The quotes that belong to a text when three quotes close it and more of them follow: at most
two. -/
def closingQuotes (quote : Char) : Reader (List Char)
  | a :: b :: rest =>
    if a = quote then if b = quote then some ([a, b], rest) else some ([a], b :: rest)
    else some ([], a :: b :: rest)
  | [a] => if a = quote then some ([a], []) else some ([], [a])
  | [] => some ([], [])

/-- Does a line end here, after blanks? -/
def endsLine (text : List Char) : Bool :=
  match text.dropWhile Reader.isBlank with
  | '\n' :: _ => true
  | '\r' :: '\n' :: _ => true
  | _ => false

/-- A basic text of several lines from behind its opening quotes on. A backslash at the end of a
line joins the line to the next character that is not blank: `joining` holds from there to that
character. -/
def basicLines (joining : Bool) : Reader (List Char)
  | '"' :: '"' :: '"' :: rest => closingQuotes '"' rest
  | '\r' :: '\n' :: rest => do
    let (body, rest) ← basicLines joining rest
    return (if joining then body else '\n' :: body, rest)
  | '\\' :: 'u' :: a :: b :: c :: d :: rest => do
    let char ← hexChar? [a, b, c, d]
    let (body, rest) ← basicLines false rest
    return (char :: body, rest)
  | '\\' :: 'U' :: a :: b :: c :: d :: e :: f :: g :: h :: rest => do
    let char ← hexChar? [a, b, c, d, e, f, g, h]
    let (body, rest) ← basicLines false rest
    return (char :: body, rest)
  | '\\' :: c :: rest =>
    if endsLine (c :: rest) then basicLines true (c :: rest)
    else do
      let char ← escape? c
      let (body, rest) ← basicLines false rest
      return (char :: body, rest)
  | c :: rest =>
    if joining && (Reader.isBlank c || c == '\n') then basicLines true rest
    else if c == '\n' || Reader.isPlain c && c != '\\' then do
      let (body, rest) ← basicLines false rest
      return (c :: body, rest)
    else none
  | [] => none

/-- A literal text of several lines from behind its opening quotes on. -/
def literalLines : Reader (List Char)
  | '\'' :: '\'' :: '\'' :: rest => closingQuotes '\'' rest
  | '\r' :: '\n' :: rest => do
    let (body, rest) ← literalLines rest
    return ('\n' :: body, rest)
  | c :: rest =>
    if c == '\n' || Reader.isPlain c then do
      let (body, rest) ← literalLines rest
      return (c :: body, rest)
    else none
  | [] => none

/-- A text of several lines between three quotes. A line end right behind the opening quotes does
not count. -/
def linesText (quote : Char) (body : Reader (List Char)) : Reader (List Char) := do
  Reader.word [quote, quote, quote]
  discard (optional Reader.newline)
  body

/-- A quoted text of any kind. Three quotes always open a text of several lines. -/
def text : Reader (List Char) := fun chars =>
  match chars with
  | '"' :: '"' :: '"' :: _ => linesText '"' (basicLines false) chars
  | '\'' :: '\'' :: '\'' :: _ => linesText '\'' literalLines chars
  | '"' :: _ => basicText chars
  | _ => literalText chars

/-! ### Keys -/

/-- The names that lead to a value, from the outermost table inward. -/
abbrev Path := List String

/-- A path that takes this many names or more is refused. -/
def maxDepth : Nat := 80

/-- May the character stand in a key without quotes? -/
def isBare (c : Char) : Bool := c.isAlphanum || c == '_' || c == '-'

/-- One part of a key. -/
def keyPart : Reader String := do
  Reader.blanks
  let part ←
    match ← Reader.peek with
    | some '"' => basicText
    | some '\'' => literalText
    | _ => do
      let bare ← Reader.run isBare
      guard (!bare.isEmpty)
      pure bare
  Reader.blanks
  return String.ofList part

/-- A key: parts with dots between them. -/
def key : Reader Path := do
  let first ← keyPart
  let path := first :: (← Reader.many (do Reader.word ['.']; keyPart))
  guard (path.length < maxDepth)
  return path

end Toml

end Folio

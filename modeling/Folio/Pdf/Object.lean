import Folio.Pdf.Content
import Folio.Text.Utf16

/-!
The objects of a PDF file, and their text.

`Pdf.Object` is what an object says; other objects are named by their numbers. `Pdf.Object.text`
is how it is written.
-/

namespace Folio

namespace Pdf

/-- What a document says about itself. -/
structure Info where
  title : Option String := none
  author : Option String := none
  subject : Option String := none
  keywords : Option String := none
  deriving DecidableEq, Repr

/-- An object of a file. -/
inductive Object where
  | catalog (pageTree : Nat)
  | info (about : Info)
  | pageTree (count : Nat) (kids : List Nat)
  | font
  | page (mediaBox artBox : Rect) (parent contents font : Nat)
  | content (operators : String)
  deriving DecidableEq, Repr

/-! ### Atoms -/

/-- A reference to an object. -/
def reference (id : Nat) : String := s!"{id} 0 R"

/-- Atoms in brackets. -/
def array (atoms : List String) : String := "[" ++ " ".intercalate atoms ++ "]"

/-- A number of a box: a whole number where the value is one, else a decimal with a point. The
whole number is held within 32 bits, and numbers too small or too large for a plain decimal are
written with all their places. -/
def boxNumber (x : Binary32) : String :=
  let whole := x.truncate (-2147483648) 2147483647
  if Binary.ofInt whole == x then toString whole
  else
    match x with
    | .nan => x.text
    | .number negative rank h =>
      let size : Binary32 := .number false rank h
      if 1e-6 < size ∧ size < 1e12 then
        let digits := Binary.magnitudeText .single .even rank
        let digits := if digits.contains '.' then digits else digits ++ ['.', '0']
        String.ofList (if negative then '-' :: digits else digits)
      else x.text

/-- A box as its four corners. -/
def box (r : Rect) : String :=
  array [boxNumber r.left.value, boxNumber r.bottom.value, boxNumber r.right.value,
    boxNumber r.top.value]

/-- Does every parenthesis of a text have its partner? The depth is that of the parentheses open
so far. -/
def balanced (depth : Nat) : List Char → Bool
  | [] => depth == 0
  | '(' :: text => balanced (depth + 1) text
  | ')' :: text => depth != 0 && balanced (depth - 1) text
  | _ :: text => balanced depth text

/-- A text in parentheses. Parentheses inside need a backslash unless they are balanced. -/
def literalString (text : List Char) : List Char :=
  let escape (c : Char) : List Char :=
    if c = '\\' then ['\\', '\\']
    else if (c = '(' || c = ')') && !balanced 0 text then ['\\', c]
    else [c]
  '(' :: text.flatMap escape ++ [')']

/-- Four uppercase hexadecimal digits. -/
def hexUnit (unit : Nat) : List Char :=
  [unit / 0x1000, unit / 0x100 % 16, unit / 16 % 16, unit % 16].map fun digit =>
    (Nat.digitChar digit).toUpper

/-- A text about the document: printable ASCII in parentheses, all else as hexadecimal units of
sixteen bits behind a byte order mark. -/
def textString (text : String) : String :=
  let chars := text.toList
  if chars.all fun c => 32 ≤ c.toNat && c.toNat ≤ 126 then String.ofList (literalString chars)
  else String.ofList ('<' :: (0xfeff :: Text.toUnits chars).flatMap hexUnit ++ ['>'])

/-- A dictionary whose closing bracket stands at the given indentation. -/
def dictionary (indent : Nat) (entries : List (String × String)) : String :=
  let margin (width : Nat) := String.ofList (List.replicate width ' ')
  let entry (e : String × String) := s!"{margin (indent + 2)}/{e.1} {e.2}\n"
  "<<\n" ++ String.join (entries.map entry) ++ margin indent ++ ">>"

/-! ### Objects -/

/-- The program that writes the file. -/
def creator : String := "textpage v0.1.0"

/-- The clock is left out of the model: where a file tells when it was made, all digits are zero. -/
def creationDate : String := "(D:00000000000000Z)"

/-- What the document says about itself, field by field. -/
def Info.entries (info : Info) : List (String × String) :=
  let field (name : String) (value : Option String) :=
    (value.map fun text => (name, textString text)).toList
  field "Title" info.title ++ field "Author" info.author ++ field "Subject" info.subject ++
    field "Keywords" info.keywords ++
    [("Creator", textString creator), ("CreationDate", creationDate)]

/-- The text of an object. -/
def Object.text : Object → String
  | .catalog tree => dictionary 0 [("Type", "/Catalog"), ("Pages", reference tree)]
  | .info about => dictionary 0 about.entries
  | .pageTree count kids =>
    dictionary 0 [("Type", "/Pages"), ("Count", toString count),
      ("Kids", array (kids.map reference))]
  | .font =>
    dictionary 0 [("Type", "/Font"), ("Subtype", "/Type1"), ("BaseFont", "/Courier"),
      ("Encoding", "/WinAnsiEncoding")]
  | .page mediaBox artBox parent contents fontId =>
    let resources := dictionary 2 [("Font", dictionary 4 [(Content.fontName, reference fontId)])]
    dictionary 0 [("Type", "/Page"), ("MediaBox", box mediaBox), ("ArtBox", box artBox),
      ("Parent", reference parent), ("Contents", reference contents), ("Resources", resources)]
  | .content operators =>
    dictionary 0 [("Length", toString operators.utf8ByteSize)] ++ "\nstream\n" ++ operators ++
      "\nendstream"

end Pdf

end Folio

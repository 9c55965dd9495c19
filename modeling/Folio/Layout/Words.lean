/-!
Logical lines and their words.

`normalise` leaves the line feed as the only end of a line and the space as the only blank;
`logicalLines` and `words` then cut at exactly these two.
-/

namespace Folio

/-- Four spaces stand for a tab. -/
def tab : List Char := [' ', ' ', ' ', ' ']

/-- Replaces each carriage return with a line feed behind it by the line feed alone. -/
def mergeReturns : List Char → List Char
  | '\r' :: '\n' :: text => '\n' :: mergeReturns text
  | c :: text => c :: mergeReturns text
  | [] => []

/-- Ends every line with a line feed, and puts spaces for tabs: three replacements of the whole
text, one after the other. -/
def normalise (text : String) : String :=
  let merged := mergeReturns text.toList
  let fed := merged.map fun c => if c = '\r' then '\n' else c
  String.ofList (fed.flatMap fun c => if c = '\t' then tab else [c])

/-- The lines of a text, which a line feed separates. A text has one more line than line feeds. -/
def logicalLines (text : String) : List String :=
  (text.toList.splitOn '\n').map String.ofList

/-- The words of a line, which spaces separate. No word is empty. -/
def words (line : String) : List String :=
  ((line.toList.splitOn ' ').filter (· ≠ [])).map String.ofList

end Folio

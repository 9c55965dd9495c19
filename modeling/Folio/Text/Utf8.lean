/-!
Text by the bytes of its usual encoding. Offsets into a text count bytes, and a cut between two
offsets is possible where both of them fall between characters.
-/

namespace Folio

namespace Text

/-- Number of bytes of a text. -/
def byteCount : List Char → Nat
  | [] => 0
  | c :: text => c.utf8Size + byteCount text

/-- The text without its first bytes, if the cut falls between two characters. -/
def dropBytes? : Nat → List Char → Option (List Char)
  | 0, text => some text
  | _ + 1, [] => none
  | bytes + 1, c :: text =>
    if c.utf8Size ≤ bytes + 1 then dropBytes? (bytes + 1 - c.utf8Size) text else none

/-- The first bytes of the text, if the cut falls between two characters. -/
def takeBytes? : Nat → List Char → Option (List Char)
  | 0, _ => some []
  | _ + 1, [] => none
  | bytes + 1, c :: text =>
    if c.utf8Size ≤ bytes + 1 then (takeBytes? (bytes + 1 - c.utf8Size) text).map (c :: ·)
    else none

end Text

end Folio

/-!
Text in units of sixteen bits. A character past the first 65536 is a pair of surrogates.

* `Text.toUnits` writes a text as units.
* `Text.ofUnits?` reads units as a text, unless a surrogate stands alone.
-/

namespace Folio

namespace Text

/-- The units of one character. -/
def unitsOf (c : Char) : List Nat :=
  if c.toNat < 0x10000 then [c.toNat]
  else
    let offset := c.toNat - 0x10000
    [0xd800 + offset / 0x400, 0xdc00 + offset % 0x400]

/-- The units of a text. -/
def toUnits (text : List Char) : List Nat := text.flatMap unitsOf

/-- Is the unit the first of a pair? -/
def isHighSurrogate (unit : Nat) : Bool := 0xd800 ≤ unit && unit < 0xdc00

/-- Is the unit the second of a pair? -/
def isLowSurrogate (unit : Nat) : Bool := 0xdc00 ≤ unit && unit < 0xe000

/-- The text of some units. -/
def ofUnits? : List Nat → Option (List Char)
  | [] => some []
  | [unit] =>
    if isHighSurrogate unit || isLowSurrogate unit then none else some [Char.ofNat unit]
  | high :: low :: rest =>
    if isHighSurrogate high then
      if isLowSurrogate low then do
        let code := 0x10000 + (high - 0xd800) * 0x400 + (low - 0xdc00)
        return Char.ofNat code :: (← ofUnits? rest)
      else none
    else if isLowSurrogate high then none
    else return Char.ofNat high :: (← ofUnits? (low :: rest))

end Text

end Folio

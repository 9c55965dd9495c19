/-!
The WinAnsi encoding of text in a standard font: one byte per character.

`WinAnsi.encode` encodes a text, with a question mark for each character that has no byte.
-/

namespace Folio

namespace WinAnsi

/-- The characters of the bytes from 128 to 159. Five of these bytes have none. -/
def high : List (Option Char) :=
  [some '€', none, some '‚', some 'ƒ', some '„', some '…', some '†', some '‡',
   some 'ˆ', some '‰', some 'Š', some '‹', some 'Œ', none, some 'Ž', none,
   none, some '‘', some '’', some '“', some '”', some '•', some '–', some '—',
   some '˜', some '™', some 'š', some '›', some 'œ', none, some 'ž', some 'Ÿ']

/-- Does the byte stand for the character of the same number? -/
def isDirect (code : Nat) : Bool := 0x20 ≤ code && code ≤ 0x7e || 0xa0 ≤ code && code ≤ 0xff

/-- The byte of a character. -/
def encodeChar (c : Char) : UInt8 :=
  if isDirect c.toNat then c.toNat.toUInt8
  else match high.idxOf? (some c) with
    | some place => (0x80 + place).toUInt8
    | none => '?'.toNat.toUInt8

/-- The bytes of a text. -/
def encode (text : String) : List UInt8 := text.toList.map encodeChar

end WinAnsi

end Folio

/-!
Big-endian numbers in bytes. Every reader answers `none` where the bytes end too early. The tables
of a font are searched by halving (`halved`).
-/

namespace Folio

namespace Bytes

/-- The byte at a place. -/
def byte? (data : ByteArray) (place : Nat) : Option Nat := (data[place]?).map (·.toNat)

/-- The natural number of two bytes. -/
def nat16? (data : ByteArray) (place : Nat) : Option Nat := do
  return (← byte? data place) * 0x100 + (← byte? data (place + 1))

/-- The whole number of two bytes, the upper half of the range being negative. -/
def int16? (data : ByteArray) (place : Nat) : Option Int := do
  return Int.bmod (← nat16? data place) 0x10000

/-- The natural number of four bytes. -/
def nat32? (data : ByteArray) (place : Nat) : Option Nat := do
  return (← nat16? data place) * 0x10000 + (← nat16? data (place + 2))

/-- The natural number of `size` bytes. -/
def nat? (data : ByteArray) (place : Nat) : Nat → Option Nat
  | 0 => some 0
  | size + 1 => do return (← nat? data place size) * 0x100 + (← byte? data (place + size))

/-- The whole number of `size` bytes, the upper half of the range being negative. -/
def int? (data : ByteArray) (place size : Nat) : Option Int := do
  return Int.bmod (← nat? data place size) (Nat.pow 0x100 size)

/-- `length` bytes from `start` on. -/
def slice? (data : ByteArray) (start length : Nat) : Option ByteArray :=
  if start + length ≤ data.size then some (data.extract start (start + length)) else none

/-- All bytes from `start` on. -/
def from? (data : ByteArray) (start : Nat) : Option ByteArray :=
  slice? data start (data.size - start)

/-- Do `count` records of `size` bytes lie between `start` and the end? -/
def room (data : ByteArray) (start count size : Nat) : Bool := start + count * size ≤ data.size

/-- `count` natural numbers of `size` bytes, one after the other. -/
def nats? (data : ByteArray) (start count size : Nat) : Option (Array Nat) :=
  if room data start count size then
    some ((Array.range count).map fun i => (nat? data (start + size * i) size).getD 0)
  else none

/-- `count` whole numbers of two bytes, one after the other. -/
def ints16? (data : ByteArray) (start count : Nat) : Option (Array Int) :=
  (nats? data start count 2).map fun numbers =>
    numbers.map fun (n : Nat) => Int.bmod (n : Int) 0x10000

/-! ### Search by halving -/

/-- Halves `size` entries from `base` on until one is left. Where the entries are in order, that is
the last one that is not above what is looked for, or the first one. -/
def halved (isAbove : Nat → Bool) (base size : Nat) : Nat :=
  if 1 < size then
    let half := size / 2
    halved isAbove (if isAbove (base + half) then base else base + half) (size - half)
  else base
  termination_by size

end Bytes

end Folio

import Folio.Binary.Basic
import Folio.Toml.Reader
import Folio.Toml.Text

/-!
Numbers, dates and times of a settings file.
-/

namespace Folio

namespace Toml

open Reader

/-! ### Digits -/

/-- Digits of a class after the first one. An underscore may stand between two digits. -/
def moreDigits (isDigit : Char → Bool) : List Char → List Char × List Char
  | '_' :: c :: rest =>
    if isDigit c then
      let (digits, rest) := moreDigits isDigit rest
      (c :: digits, rest)
    else ([], '_' :: c :: rest)
  | c :: rest =>
    if isDigit c then
      let (digits, rest) := moreDigits isDigit rest
      (c :: digits, rest)
    else ([], c :: rest)
  | [] => ([], [])

/-- One or more digits of a class, without the underscores between them. -/
def digits (isDigit : Char → Bool) : Reader (List Char) := do
  let first ← char isDigit
  return first :: (← fun rest => some (moreDigits isDigit rest))

/-- The number of some digits in a base. -/
def value (base : Nat) (digits : List Char) : Nat :=
  digits.foldl (fun n c => n * base + (hexDigit? c).getD 0) 0

/-- A sign: is it negative? -/
def sign : Reader Bool := do
  match ← optional (char fun c => c == '+' || c == '-') with
  | some '-' => return true
  | _ => return false

/-- Decimal digits without a leading zero, or a zero alone. -/
def decimalDigits : Reader (List Char) := do
  match ← peek with
  | some '0' => return [← char (· == '0')]
  | _ => digits Char.isDigit

/-! ### Whole numbers -/

/-- Is the number within 64 bits? -/
def inRange (n : Int) : Bool := -0x8000000000000000 ≤ n && n < 0x8000000000000000

/-- Digits of another base, behind the letter that names it. -/
def basedDigits (letter : Char) (base : Nat) : Reader Int := do
  word ['0', letter]
  let digits ← digits fun c => (hexDigit? c).any (· < base)
  return value base digits

/-- A whole number in decimal digits, with an optional sign. -/
def decimalInteger : Reader Int := do
  let negative ← sign
  let magnitude := value 10 (← decimalDigits)
  return if negative then -magnitude else magnitude

/-- A whole number within 64 bits. -/
def integer : Reader Int := do
  let n ← basedDigits 'x' 16 <|> basedDigits 'o' 8 <|> basedDigits 'b' 2 <|> decimalInteger
  guard (inRange n)
  return n

/-! ### Numbers with a point or an exponent -/

/-- The power of ten behind the letter of an exponent. -/
def exponent : Reader Int := do
  discard (char fun c => c == 'e' || c == 'E')
  let negative ← sign
  let power := value 10 (← digits Char.isDigit)
  return if negative then -power else power

/-- The digits behind a point. -/
def fraction : Reader (List Char) := do
  word ['.']
  digits Char.isDigit

/-- A number in digits, with a point or an exponent or both. One that lies above all finite numbers
is refused; one that lies below all of them is the negative infinity. -/
def digitFloat : Reader Binary64 := do
  let negative ← sign
  let whole ← decimalDigits
  let places ← optional fraction
  let power ←
    match places with
    | some _ => (·.getD 0) <$> optional exponent
    | none => exponent
  let places := places.getD []
  let x : Binary64 := .ofDecimal negative (value 10 (whole ++ places)) (power - places.length)
  guard (x ≠ .infinity false)
  return x

/-- Infinity or not a number, with an optional sign. -/
def specialFloat : Reader Binary64 := do
  let negative ← sign
  (do word ['i', 'n', 'f']; return .infinity negative) <|> (do word ['n', 'a', 'n']; return .nan)

/-- A number that is not a whole number by its form. -/
def float : Reader Binary64 := digitFloat <|> specialFloat

/-! ### Dates and times -/

/-- Exactly `count` digits. -/
def exactDigits : Nat → Reader (List Char)
  | 0 => pure []
  | count + 1 => do
    let first ← char Char.isDigit
    return first :: (← exactDigits count)

/-- Two digits with a value up to a limit. -/
def twoDigits (limit : Nat) : Reader Nat := do
  let n := value 10 (← exactDigits 2)
  guard (n ≤ limit)
  return n

/-- The number of days of a month. -/
def daysOf (year month : Nat) : Nat :=
  if month = 2 then
    if year % 4 = 0 ∧ (year % 100 ≠ 0 ∨ year % 400 = 0) then 29 else 28
  else if month ∈ [4, 6, 9, 11] then 30
  else 31

/-- A date that the calendar has. -/
def date : Reader Unit := do
  let year := value 10 (← exactDigits 4)
  word ['-']
  let month ← twoDigits 12
  word ['-']
  let day ← twoDigits 31
  guard (1 ≤ month && 1 ≤ day && day ≤ daysOf year month)

/-- A time of day, with an optional fraction of a second. A leap second counts. -/
def time : Reader Unit := do
  discard (twoDigits 23)
  word [':']
  discard (twoDigits 59)
  word [':']
  discard (twoDigits 60)
  discard (optional (do word ['.']; discard (char Char.isDigit); run Char.isDigit))

/-- A distance from universal time. -/
def timeOffset : Reader Unit :=
  discard (char fun c => c == 'Z' || c == 'z') <|> do
    discard (char fun c => c == '+' || c == '-')
    discard (twoDigits 23)
    word [':']
    discard (twoDigits 59)

/-- A date, a time, or both with an optional distance from universal time. -/
def dateTime : Reader Unit :=
  (do
    date
    discard (optional do
      discard (char fun c => c == 'T' || c == 't' || c == ' ')
      time
      optional timeOffset)) <|> time

end Toml

end Folio

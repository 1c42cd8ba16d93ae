import Galley.Decimal.Nearest
import Galley.Text.Cut

/-!
# Reading numbers

The decimal numerals that text may hold: an optional sign, digits with at most one point, and an
optional exponent, or one of the names of infinity and of the undefined double. No blank and no
separator is accepted. The value is the nearest double.
-/

namespace Galley.Decimal

/-- The leading digits of a text, and what follows them. -/
def takeDigits (s : List Char) : List Char × List Char :=
  (s.takeWhile Char.isDigit, s.dropWhile Char.isDigit)

/-- The number that decimal digits denote. -/
def digitsValue (ds : List Char) : Nat := Nat.ofDigitChars 10 ds 0

/-- An optional sign, and what follows it. -/
def takeSign : List Char → Bool × List Char
  | '+' :: s => (false, s)
  | '-' :: s => (true, s)
  | s => (false, s)

/-- The exponent of a numeral, after its digits. -/
def exponent? : List Char → Option Int
  | [] => some 0
  | c :: s =>
    if c = 'e' ∨ c = 'E' then
      let (negative, s) := takeSign s
      let (ds, rest) := takeDigits s
      if ds.isEmpty || !rest.isEmpty then none
      else some (if negative then -digitsValue ds else digitsValue ds)
    else none

/-- The digits of a numeral before and after its point, and what follows them. -/
def takeMantissa (s : List Char) : List Char × List Char × List Char :=
  let (whole, s) := takeDigits s
  match s with
  | '.' :: s => let (places, s) := takeDigits s; (whole, places, s)
  | s => (whole, [], s)

/-- The bits of an unsigned numeral. -/
def magnitude? (s : List Char) : Option Nat :=
  let (whole, places, s) := takeMantissa s
  if whole.isEmpty && places.isEmpty then none
  else (exponent? s).map fun e =>
    nearestDecimal (digitsValue (whole ++ places)) (e - places.length)

/-- The bits of the undefined double. -/
def undefinedBits : Nat := 0x7ff8000000000000

/-- The bits of a special value that is written by name, in any letter case. -/
def named? (s : List Char) : Option Nat :=
  let name := Text.lowerAscii s
  if name = "inf".toList ∨ name = "infinity".toList then some infinityBits
  else if name = "nan".toList then some undefinedBits
  else none

/-- The double that a text denotes. -/
def read? (s : List Char) : Option Float :=
  let (negative, s) := takeSign s
  ((named? s).or (magnitude? s)).map (withSign negative)

/-- The natural number up to a bound that a text denotes: digits, after an optional plus. -/
def readNat? (bound : Nat) (s : List Char) : Option Nat :=
  let ds := match s with
    | '+' :: s => s
    | s => s
  if ds.isEmpty || !ds.all Char.isDigit then none
  else
    let n := digitsValue ds
    if n ≤ bound then some n else none

end Galley.Decimal

import Galley.Decimal.Nearest

/-!
# The fewest digits that read back

A finite double is written with the fewest decimal digits whose nearest double it is, and of
those with the digits nearest to its exact value. Where two are equally near, the format says which
to take. A double that no seventeen digits bring back keeps its exact expansion, so that the digits
read back always.
-/

namespace Galley.Decimal

/-- The number `digits * 10 ^ exponent`. -/
structure Scaled where
  digits : Nat
  exponent : Int
  deriving DecidableEq

/-- Which of two equally near decimals is taken. -/
inductive Tie where
  /-- The larger one. -/
  | up
  /-- The one with an even last digit. -/
  | even
  deriving DecidableEq

/-- Does `num / den` reach `10 ^ e`? -/
def reaches (num den : Nat) (e : Int) : Bool :=
  den * Nat.pow 10 e.toNat ≤ num * Nat.pow 10 (-e).toNat

/-- The exponent of the leading decimal digit of a positive fraction: a guess from the binary
logarithm, corrected by one step. -/
def decade (num den : Nat) : Int :=
  let b : Int := (Nat.log2 num : Int) - (Nat.log2 den : Int)
  let e := Int.fdiv (b * 30103) 100000
  if !reaches num den e then e - 1
  else if reaches num den (e + 1) then e + 1
  else e

/-- The two neighbours of a fraction among the multiples of `10 ^ grid`, nearest first. -/
def neighbours (tie : Tie) (num den : Nat) (grid : Int) : List Scaled :=
  let n := num * Nat.pow 10 (-grid).toNat
  let d := den * Nat.pow 10 grid.toNat
  let low := n / d
  let isLowFirst := 2 * (n % d) < d || (2 * (n % d) == d && tie == .even && low % 2 == 0)
  if isLowFirst then [⟨low, grid⟩, ⟨low + 1, grid⟩] else [⟨low + 1, grid⟩, ⟨low, grid⟩]

/-- Is the double with these bits the nearest one to the decimal? -/
def readsBack (bits : Nat) (s : Scaled) : Bool := nearestDecimal s.digits s.exponent == bits

/-- The exact decimal expansion of `mantissa * 2 ^ exponent`. -/
def expansion (mantissa : Nat) (exponent : Int) : Scaled :=
  if 0 ≤ exponent then ⟨mantissa * Nat.pow 2 exponent.toNat, 0⟩
  else ⟨mantissa * Nat.pow 5 (-exponent).toNat, exponent⟩

/-- The shortest decimal that reads back as `mantissa * 2 ^ exponent`, which is positive. -/
def shortest (tie : Tie) (mantissa : Nat) (exponent : Int) : Scaled :=
  let num := numerator mantissa exponent
  let den := denominator exponent
  let bits := nearestBits num den
  let lead := decade num den
  ((List.range 17).findSome? fun (n : Nat) =>
    (neighbours tie num den (lead - n)).find? (readsBack bits)).getD (expansion mantissa exponent)

end Galley.Decimal

import Galley.Decimal.Binary

/-!
# The nearest double

Every non-negative fraction has a nearest double, with ties to the even mantissa, gradual
underflow, and infinity past the largest finite one. All exact text is read through it.
-/

namespace Galley.Decimal

/-- The least `e` with `num / den < 2 ^ (e + 1)`, for a positive fraction. -/
def binade (num den : Nat) : Int :=
  let e : Int := (Nat.log2 num : Int) - (Nat.log2 den : Int)
  if num * Nat.pow 2 (-e).toNat < den * Nat.pow 2 e.toNat then e - 1 else e

/-- The bits, without the sign, of the double nearest to `num / den`. -/
def nearestBits (num den : Nat) : Nat :=
  if num == 0 then 0
  else
    let unit := max (binade num den - 52) (-1074)
    let mantissa := roundQuotient (num * Nat.pow 2 (-unit).toNat) (den * Nat.pow 2 unit.toNat)
    let bits :=
      if mantissa < leadingBit then mantissa
      else (unit + 1075).toNat * leadingBit + (mantissa - leadingBit)
    min bits infinityBits

/-- The double with the given sign and the other bits as given. -/
def withSign (negative : Bool) (bits : Nat) : Float :=
  Float.ofBits (UInt64.ofNat ((if negative then signBit else 0) + bits))

/-- The double nearest to a fraction. -/
def nearest (negative : Bool) (num den : Nat) : Float :=
  withSign negative (nearestBits num den)

/-- The double nearest to a natural number. -/
def ofNat (n : Nat) : Float := nearest false n 1

/-- The double nearest to an integer. -/
def ofInt (n : Int) : Float := nearest (n < 0) n.natAbs 1

/-- The bits of the double nearest to `digits * 10 ^ exponent`. Past 10 ^ 310 it is infinite and
below 10 ^ -400 zero, whatever the digits, so that no larger power is computed. -/
def nearestDecimal (digits : Nat) (exponent : Int) : Nat :=
  if digits == 0 then 0
  else if 310 ≤ exponent then infinityBits
  else if exponent + (Nat.log2 digits / 3 : Nat) < -400 then 0
  else nearestBits (digits * Nat.pow 10 exponent.toNat) (Nat.pow 10 (-exponent).toNat)

end Galley.Decimal

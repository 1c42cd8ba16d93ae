/-!
# Doubles as exact numbers

A finite double is a signed mantissa times a power of two. Decimal text is read into and written
from this view in exact arithmetic.
-/

namespace Galley.Decimal

/-- What a double stands for. -/
inductive Binary where
  /-- The number `± mantissa * 2 ^ exponent`. -/
  | finite (negative : Bool) (mantissa : Nat) (exponent : Int)
  | infinite (negative : Bool)
  | nan
  deriving DecidableEq

/-- The bit of the sign. -/
def signBit : Nat := 0x8000000000000000

/-- The bit that a mantissa has in front of its 52 written ones. -/
def leadingBit : Nat := 0x10000000000000

/-- The bits of infinity. -/
def infinityBits : Nat := 0x7ff0000000000000

/-- What a word of 64 bits stands for as a double. -/
def Binary.ofBits (bits : UInt64) : Binary :=
  let n := bits.toNat
  let negative := n / signBit == 1
  let field : Nat := n / leadingBit % 2048
  let fraction := n % leadingBit
  if field == 2047 then
    if fraction == 0 then .infinite negative else .nan
  else if field == 0 then .finite negative fraction (-1074)
  else .finite negative (leadingBit + fraction) ((field : Int) - 1075)

/-- What a double stands for. -/
def Binary.ofFloat (x : Float) : Binary := .ofBits x.toBits

/-- Is the double a number, neither infinite nor undefined? -/
def isFinite (x : Float) : Bool :=
  match Binary.ofFloat x with
  | .finite .. => true
  | _ => false

/-- The numerator of `mantissa * 2 ^ exponent` as a fraction in natural numbers. -/
def numerator (mantissa : Nat) (exponent : Int) : Nat :=
  mantissa * Nat.pow 2 exponent.toNat

/-- The denominator of `mantissa * 2 ^ exponent` as a fraction in natural numbers. -/
def denominator (exponent : Int) : Nat := Nat.pow 2 (-exponent).toNat

/-- The quotient rounded to the nearest natural number, a half to the even one. -/
def roundQuotient (num den : Nat) : Nat :=
  let q := num / den
  let r := num % den
  if 2 * r < den then q
  else if den < 2 * r then q + 1
  else if q % 2 == 0 then q else q + 1

end Galley.Decimal

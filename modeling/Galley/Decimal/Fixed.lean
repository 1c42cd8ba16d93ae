import Galley.Decimal.Binary

/-!
# A fixed number of decimal places

The exact value of a double, rounded to a number of places with a half to the even neighbour.
-/

namespace Galley.Decimal

/-- The digits of `n / 10 ^ places`, with exactly `places` of them after the point. -/
def placed (places n : Nat) : List Char :=
  let ds := Nat.toDigits 10 n
  let padded := List.replicate (places + 1 - ds.length) '0' ++ ds
  padded.take (padded.length - places) ++ '.' :: padded.drop (padded.length - places)

/-- The double with the given number of places after the point. -/
def fixed (places : Nat) (x : Float) : List Char :=
  match Binary.ofFloat x with
  | .nan => "NaN".toList
  | .infinite negative => (if negative then ['-'] else []) ++ "inf".toList
  | .finite negative mantissa exponent =>
    let n := roundQuotient (numerator mantissa exponent * Nat.pow 10 places) (denominator exponent)
    (if negative then ['-'] else []) ++ placed places n

/-- The digits without trailing zeros, and without the point if it comes to stand last. -/
def trimPlaces (s : List Char) : List Char :=
  let kept := s.reverse.dropWhile (· = '0')
  (kept.dropWhile (· = '.')).reverse

end Galley.Decimal

import Galley.Decimal.Shortest

/-!
# Decimal text

How the shortest digits of a double are set out: with all digits, or in scientific notation
outside a window of exponents. Texts never use an exponent; data does, and always shows that a
number is a double.
-/

namespace Galley.Decimal

/-- The decisions of a decimal format. -/
structure Layout where
  /-- The exponents of the leading digit that are written without an exponent; all if none. -/
  window : Option (Int × Int)
  /-- Is a whole number written with `.0`? -/
  pointZero : Bool
  /-- Which of two equally near texts is taken. -/
  tie : Tie

/-- Numbers within text: all digits, and no point in a whole number. -/
def Layout.plain : Layout := ⟨none, false, .up⟩

/-- Numbers within data: an exponent outside 10⁻⁵ to 10¹⁵, and a point otherwise. -/
def Layout.data : Layout := ⟨some (-5, 15), true, .even⟩

/-- The digits of a scaled number without their trailing zeros, with the exponent that makes up
for them. -/
def Scaled.significant (s : Scaled) : List Char × Int :=
  let ds := Nat.toDigits 10 s.digits
  let kept := (ds.reverse.dropWhile (· = '0')).reverse
  (kept, s.exponent + (ds.length - kept.length : Nat))

/-- All digits of `0.ds * 10 ^ point`. -/
def Layout.positional (l : Layout) (ds : List Char) (point : Int) : List Char :=
  if point ≤ 0 then ['0', '.'] ++ List.replicate (-point).toNat '0' ++ ds
  else if (ds.length : Int) ≤ point then
    ds ++ List.replicate (point - ds.length).toNat '0' ++ if l.pointZero then ['.', '0'] else []
  else ds.take point.toNat ++ '.' :: ds.drop point.toNat

/-- An integer in decimal. -/
def integer (n : Int) : List Char :=
  (if n < 0 then ['-'] else []) ++ Nat.toDigits 10 n.natAbs

/-- Digits and an exponent with its sign. -/
def scientific (ds : List Char) (lead : Int) : List Char :=
  ds.take 1 ++ (if ds.length ≤ 1 then [] else '.' :: ds.drop 1) ++
    'e' :: (if lead < 0 then [] else ['+']) ++ integer lead

/-- The digits of a positive number. -/
def Layout.magnitude (l : Layout) (mantissa : Nat) (exponent : Int) : List Char :=
  let (ds, x) := (shortest l.tie mantissa exponent).significant
  let point := x + ds.length
  match l.window with
  | some (low, high) =>
    if low ≤ point - 1 ∧ point - 1 ≤ high then l.positional ds point else scientific ds (point - 1)
  | none => l.positional ds point

/-- The text of a double. -/
def Layout.render (l : Layout) (x : Float) : List Char :=
  match Binary.ofFloat x with
  | .nan => "NaN".toList
  | .infinite negative => (if negative then ['-'] else []) ++ "inf".toList
  | .finite negative mantissa exponent =>
    (if negative then ['-'] else []) ++
      if mantissa == 0 then (if l.pointZero then ['0', '.', '0'] else ['0'])
      else l.magnitude mantissa exponent

/-- A double within text. -/
def plain (x : Float) : String := String.ofList (Layout.plain.render x)

/-- A natural number in decimal. -/
def natural (n : Nat) : String := String.ofList (Nat.toDigits 10 n)

end Galley.Decimal

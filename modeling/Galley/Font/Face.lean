import Galley.Decimal.Reading
import Galley.Font.Family
import Galley.Style.Value

/-!
# Font faces

A face is a family with a weight and a slant. Weights are whole numbers from 1 to 1000.
-/

namespace Galley.Font

/-- Upright or italic letters. -/
inductive Slant where
  | normal
  | italic
  deriving DecidableEq

/-- The name of a slant. -/
def Slant.name : Slant → String
  | normal => "normal"
  | italic => "italic"

/-- The slant that a style value names. Oblique letters count as italic ones. -/
def Slant.parse? (s : String) : Option Slant :=
  let name := String.ofList (Text.lowerAscii (Text.trim s.toList))
  if name = "normal" then some normal
  else if name = "italic" || name = "oblique" then some italic
  else none

/-- The weight of the regular face. -/
def defaultWeight : Nat := 400

/-- Weights by name. -/
def weightNames : List (String × Nat) := [
  ("thin", 100), ("hairline", 100), ("extralight", 200), ("ultralight", 200), ("light", 300),
  ("normal", 400), ("regular", 400), ("medium", 500), ("semibold", 600), ("demibold", 600),
  ("bold", 700), ("extrabold", 800), ("ultrabold", 800), ("black", 900), ("heavy", 900)]

/-- Is the number a weight? -/
def isWeight (n : Nat) : Bool := 1 ≤ n && n ≤ 1000

/-- The weight nearest to a number between 1 and 1000, a half upwards. -/
def weightOfNumber? (x : Float) : Option Nat :=
  match Decimal.Binary.ofFloat x with
  | .finite false mantissa exponent =>
    let num := Decimal.numerator mantissa exponent
    let den := Decimal.denominator exponent
    if den ≤ num ∧ num ≤ 1000 * den then some ((2 * num + den) / (2 * den)) else none
  | _ => none

/-- The weight that a style value denotes. -/
def weight? : Style.Value → Option Nat
  | .number x => weightOfNumber? x
  | .text s =>
    let name := Text.lowerAscii (Text.trim s.toList)
    match weightNames.find? fun w => w.1.toList == name with
    | some (_, w) => some w
    | none => (Decimal.readNat? 65535 name).filter isWeight

/-- A family key with a weight and a slant. -/
structure Face where
  family : String
  weight : Nat
  slant : Slant
  deriving DecidableEq

/-- The face of a family in any spelling. -/
def Face.of (family : String) (weight : Nat) (slant : Slant) : Face :=
  ⟨familyKey family, weight, slant⟩

/-- The face within text. -/
def Face.display (f : Face) : String :=
  f.family ++ " " ++ Decimal.natural f.weight ++ " " ++ f.slant.name

end Galley.Font

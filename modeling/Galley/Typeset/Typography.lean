import Galley.Font.Face
import Galley.Style.UtilityClass

/-!
# Typography

The family, the weight and the slant in effect at an element. Each of them is what the nearest
element around it says, itself included; without any, it is the regular face of no family.
-/

namespace Galley.Typeset

/-- The family that a style names, by its display name. -/
def family? (s : Style) : Option String :=
  (((s.get? "fontFamily").bind Style.Value.text?).map Font.displayName).filter (· ≠ "")

/-- The weight that a style sets. -/
def weight? (s : Style) : Option Nat := (s.get? "fontWeight").bind Font.weight?

/-- The slant that a style sets. -/
def slant? (s : Style) : Option Font.Slant :=
  ((s.get? "fontStyle").bind Style.Value.text?).bind Font.Slant.parse?

/-- Font settings in effect. -/
structure Typography where
  family : Option String
  weight : Nat
  slant : Font.Slant
  deriving DecidableEq

namespace Typography

/-- The settings where nothing is said. -/
def initial : Typography := ⟨none, Font.defaultWeight, .normal⟩

/-- The settings with what a style says in place of them. -/
def apply (t : Typography) (s : Style) : Typography :=
  ⟨(family? s).or t.family, (weight? s).getD t.weight, (slant? s).getD t.slant⟩

end Typography

/-- Does a style say anything about typography? -/
def speaks (s : Style) : Bool := (family? s).isSome || (weight? s).isSome || (slant? s).isSome

end Galley.Typeset

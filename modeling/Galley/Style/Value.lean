import Galley.Decimal.Fixed
import Galley.Decimal.Layout
import Galley.Dict

/-!
# Styles

A style gives values to properties. A value is a number (points, weights, ratios) or a text
(percentages, colors, keywords). When two styles are merged the second one wins under every
name that both have.
-/

namespace Galley

/-- The value of a style property. -/
inductive Style.Value where
  | number (x : Float)
  | text (s : String)
  deriving DecidableEq

/-- Values under property names. -/
abbrev Style := Dict Style.Value

/-- One property with its value. -/
abbrev Style.Declaration := String × Style.Value

namespace Style.Value

/-- A percentage with up to six places. -/
def percent (x : Float) : Value :=
  .text (String.ofList (Decimal.trimPlaces (Decimal.fixed 6 x)) ++ "%")

/-- The number, if it is one. -/
def number? : Value → Option Float
  | number x => some x
  | text _ => none

/-- The text, if it is one. -/
def text? : Value → Option String
  | text s => some s
  | number _ => none

/-- The value within text. -/
def display : Value → String
  | number x => Decimal.plain x
  | text s => s

end Style.Value

end Galley

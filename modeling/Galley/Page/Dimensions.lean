import Galley.Decimal.Reading
import Galley.Text.Blank

/-!
# Page dimensions

Widths and heights in points. Named sizes are upright; a page is turned by exchanging its sides
where they stand the other way.
-/

namespace Galley.Page

/-- The size of a page in points. -/
structure Dimensions where
  width : Float
  height : Float
  deriving DecidableEq

namespace Dimensions

/-- The named sizes. -/
def presets : List (String × Dimensions) := [
  ("A3", ⟨841.89, 1190.55⟩), ("A4", ⟨595.28, 841.89⟩), ("A5", ⟨419.53, 595.28⟩),
  ("A6", ⟨297.64, 419.53⟩), ("B4", ⟨708.66, 1000.63⟩), ("B5", ⟨498.90, 708.66⟩),
  ("LETTER", ⟨612.0, 792.0⟩), ("LEGAL", ⟨612.0, 1008.0⟩), ("TABLOID", ⟨792.0, 1224.0⟩),
  ("EXECUTIVE", ⟨521.86, 756.0⟩)]

/-- The size of a page when nothing else is said. -/
def a4 : Dimensions := ⟨595.28, 841.89⟩

/-- The size with a name, in any letter case and with blanks around it. -/
def ofName? (name : String) : Option Dimensions :=
  let key := Text.upperAscii (Text.trim name.toList)
  (presets.find? fun p => p.1.toList == key).map (·.2)

/-- The size with its sides exchanged. -/
def turned (d : Dimensions) : Dimensions := ⟨d.height, d.width⟩

/-- The size with its long side horizontal. -/
def landscape (d : Dimensions) : Dimensions := if d.height ≤ d.width then d else d.turned

/-- The size with its long side vertical. -/
def portrait (d : Dimensions) : Dimensions := if d.width ≤ d.height then d else d.turned

end Dimensions

/-- The way a page stands. -/
inductive Orientation where
  | portrait
  | landscape
  deriving DecidableEq

/-- The name of an orientation. -/
def Orientation.name : Orientation → String
  | portrait => "portrait"
  | landscape => "landscape"

/-- The size turned to stand as declared. -/
def Orientation.apply : Orientation → Dimensions → Dimensions
  | portrait, d => d.portrait
  | landscape, d => d.landscape

end Galley.Page

import Galley.Text.Blank
import Galley.Text.Case

/-!
# Font families

A family is written as the first entry of a stack, with or without quotes and in any letter case.
Its key is what all its spellings share; its display name keeps the letters as written.
-/

namespace Galley.Font

/-- The quotes that may stand around a family name. -/
def isQuote (c : Char) : Bool := c = '"' || c.toNat = 0x27

/-- The words of the first family of a stack. -/
def familyWords (raw : List Char) : List (List Char) :=
  Text.words ((raw.takeWhile (· ≠ ',')).filter fun c => !isQuote c)

/-- The key of a family: its words in lower case with hyphens between them. -/
def familyKey (raw : String) : String :=
  String.ofList (Text.joinWith ['-'] ((familyWords raw.toList).map Text.lowercase))

/-- The name of a family as written: its words with single spaces between them. -/
def displayName (raw : String) : String :=
  String.ofList (Text.joinWith [' '] (familyWords raw.toList))

end Galley.Font

import Galley.Font.Face

/-!
# The public font catalog

The catalog lists families under names of its own. A known family has its catalog name in a table;
any other keeps its spelling, with a capital where a word has none. A face is found through a
stylesheet, whose address encodes name, slant and weight.
-/

namespace Galley.Font

/-- Catalog names by family key. -/
def catalog : List (String × String) := [
  ("inter", "Inter"), ("roboto", "Roboto"), ("roboto-mono", "Roboto Mono"),
  ("open-sans", "Open Sans"), ("lato", "Lato"), ("montserrat", "Montserrat"),
  ("poppins", "Poppins"), ("raleway", "Raleway"), ("nunito", "Nunito"),
  ("merriweather", "Merriweather"), ("playfair-display", "Playfair Display"),
  ("source-sans-pro", "Source Sans 3"), ("source-serif-pro", "Source Serif 4"),
  ("fira-code", "Fira Code"), ("jetbrains-mono", "JetBrains Mono"),
  ("ibm-plex-sans", "IBM Plex Sans"), ("ibm-plex-mono", "IBM Plex Mono"),
  ("noto-sans", "Noto Sans"), ("noto-serif", "Noto Serif"), ("pt-sans", "PT Sans"),
  ("dm-sans", "DM Sans"), ("helvetica", "Arimo"), ("arial", "Arimo"), ("times", "Tinos"),
  ("times-new-roman", "Tinos"), ("courier", "Cousine"), ("courier-new", "Cousine"),
  ("sans-serif", "Inter"), ("serif", "Merriweather"), ("monospace", "Roboto Mono")]

/-- A word of a family name that the catalog does not know: unchanged if it has a capital. -/
def catalogWord (word : List Char) : List Char :=
  if word.any Text.isUppercase then word else Text.capitalize word

/-- The pieces of a name between spaces and hyphens that are not empty. -/
def nameParts (name : List Char) : List (List Char) :=
  (Text.pieces (fun c => c = ' ' || c = '-') name).filter fun w => !w.isEmpty

/-- The name of a family in the catalog. -/
def catalogName (family : String) : String :=
  match catalog.find? fun e => e.1 = familyKey family with
  | some (_, name) => name
  | none =>
    String.ofList
      (Text.joinWith [' '] ((nameParts (displayName family).toList).map catalogWord))

/-- The digit that stands for a slant in an address. -/
def slantDigit : Slant → String
  | .normal => "0"
  | .italic => "1"

/-- The address of the stylesheet of one face. -/
def stylesheetUrl (base name : String) (weight : Nat) (slant : Slant) : String :=
  base ++ "?family=" ++ String.ofList (name.toList.map fun c => if c = ' ' then '+' else c) ++
    ":ital,wght@" ++ slantDigit slant ++ "," ++ Decimal.natural weight

end Galley.Font

/-!
# Cutting text

Affixes taken off a text, and a text cut in two at the first or the last occurrence of a
character.
-/

namespace Galley.Text

/-- What follows the prefix `p`, if the text starts with it. -/
def afterPrefix? (p : String) (s : List Char) : Option (List Char) :=
  p.toList.isPrefixOf? s

/-- What precedes the suffix `p`, if the text ends with it. -/
def beforeSuffix? (p : String) (s : List Char) : Option (List Char) :=
  p.toList.isSuffixOf? s

/-- Does the text start with `p`? -/
def startsWith (p : String) (s : List Char) : Bool :=
  p.toList.isPrefixOf s

/-- Does `p` occur in the text? -/
def hasInfix (p : List Char) : List Char → Bool
  | [] => p.isEmpty
  | c :: s => p.isPrefixOf (c :: s) || hasInfix p s

/-- The text inside a pair of square brackets. -/
def bracketed? (s : List Char) : Option (List Char) :=
  (afterPrefix? "[" s).bind (beforeSuffix? "]")

/-- What stands before and after the first `sep`. -/
def cutFirst? (sep : Char) : List Char → Option (List Char × List Char)
  | [] => none
  | c :: s =>
    if c = sep then some ([], s)
    else (cutFirst? sep s).map fun (l, r) => (c :: l, r)

/-- What stands before and after the last `sep`. -/
def cutLast? (sep : Char) (s : List Char) : Option (List Char × List Char) :=
  (cutFirst? sep s.reverse).map fun (r, l) => (l.reverse, r.reverse)

/-- The text in ASCII lower case. -/
def lowerAscii (s : List Char) : List Char := s.map Char.toLower

/-- The text in ASCII upper case. -/
def upperAscii (s : List Char) : List Char := s.map Char.toUpper

end Galley.Text

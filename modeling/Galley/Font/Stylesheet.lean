import Galley.Font.Family
import Galley.Text.Cut

/-!
# Font files in a stylesheet

A stylesheet names its font files in `url(…)`. The file that counts is the first one whose address
ends, before an optional query, in an extension of a font format.
-/

namespace Galley.Font

/-- The extensions of font files. -/
def fontExtensions : List String := [".ttf", ".otf", ".woff", ".woff2"]

/-- May the character stand in an address? -/
def isAddressChar (c : Char) : Bool := !isQuote c && c ≠ ')' && !Text.isBlank c

/-- Is the text a font extension, alone or before a query? -/
def isExtension (s : List Char) : Bool :=
  fontExtensions.any fun e =>
    match Text.afterPrefix? e s with
    | some rest => rest.isEmpty || rest.head? = some '?'
    | none => false

/-- Does an extension, alone or before a query, end the text? -/
def hasExtension : List Char → Bool
  | [] => false
  | c :: s => (c = '.' && isExtension (c :: s)) || hasExtension s

/-- Is the address that of a font file? Something stands before its extension. -/
def isFontAddress (s : List Char) : Bool := hasExtension (s.drop 1)

/-- The text without a quote at its start. -/
def dropQuote : List Char → List Char
  | [] => []
  | c :: s => if isQuote c then s else c :: s

/-- The address of a font file at the start of a text that follows `url(`. -/
def fontAddress? (s : List Char) : Option (List Char) :=
  let s := dropQuote (Text.trimStart s)
  let address := s.takeWhile isAddressChar
  let rest := Text.trimStart (dropQuote (s.dropWhile isAddressChar))
  if isFontAddress address && rest.head? = some ')' then some address else none

/-- The address of the first font file in a stylesheet. If the characters after `url(` are refused,
so are those after any later one among them. Only one at their end may begin another address. -/
def firstFontAddress? : List Char → Option (List Char)
  | [] => none
  | 'u' :: 'r' :: 'l' :: '(' :: s =>
    match fontAddress? s with
    | some address => some address
    | none => firstFontAddress? (s.drop ((s.takeWhile isAddressChar).length - 4))
  | _ :: s => firstFontAddress? s
termination_by s => s.length
decreasing_by
  · rw [List.length_drop]
    simp only [List.length_cons]
    omega
  · simp

/-- The address of the first font file in a stylesheet. -/
def firstFontUrl? (css : String) : Option String :=
  (firstFontAddress? css.toList).map String.ofList

end Galley.Font

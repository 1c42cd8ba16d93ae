import Galley.Decimal.Reading
import Galley.Image.Raster.Flat
import Galley.Text.Blank

/-!
# HDR headers

Lines with attributes, an empty line, and a line with the dimensions of an image whose rows go down.
-/

namespace Galley.Image.Raster.Hdr

/-- The lines of a text. The last one need not have an end. -/
def lines (bs : Bytes) : List (List Char) :=
  let ls := bs.splitOn 10
  (if ls.getLast? = some [] then ls.dropLast else ls).map Bytes.toTextLossy

/-- Is it a number? -/
def isNumber (s : List Char) : Bool := (Decimal.read? s).isSome

/-- Is the value of an attribute sound? Only known attributes are looked at. -/
def isAttribute (name : String) (value : List Char) : Bool :=
  match name with
  | "FORMAT" => Text.trim value = "32-bit_rle_rgbe".toList
  | "EXPOSURE" | "PIXASPECT" => isNumber (Text.trim value)
  | "COLORCORR" => (Text.words value).length = 3 && (Text.words value).all isNumber
  | _ => true

/-- Is the line sound? A line without a name or without a value is a command, and may be any. -/
def isSound (line : List Char) : Bool :=
  match line.span (· ≠ '=') with
  | (name, _ :: value) =>
    name.isEmpty || value.isEmpty || isAttribute (String.ofList (Text.trim name)) value
  | (_, []) => true

/-- The dimensions in the line for them. -/
def dimensions? (line : List Char) : Option Pixels := do
  match Text.words line with
  | [['-', 'Y'], height, ['+', 'X'], width] =>
    let height ← Decimal.readNat? 0xffffffff height
    let width ← Decimal.readNat? 0xffffffff width
    guard (isCountable (width, height) 3)
    return (width, height)
  | _ => none

/-- The dimensions in the lines of a header. -/
def header? : List (List Char) → Option Pixels
  | [] => none
  | line :: rest =>
    if line.isEmpty then rest.head?.bind dimensions?
    else if line.head? = some '#' || isSound line then header? rest
    else none

/-- The dimensions of an HDR file. -/
def pixels : Scan Pixels := do
  Scan.word "#?RADIANCE"
  header? ((lines (← get)).drop 1)

end Galley.Image.Raster.Hdr

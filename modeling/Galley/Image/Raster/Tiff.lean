import Galley.Image.Raster.Flat

/-!
# TIFF headers

A directory of tags, in either order of bytes. The dimensions count if the tags agree with one
another: samples of one depth in a color space that is read, and a place for each strip or tile.
-/

namespace Galley.Image.Raster.Tiff

/-- The next number, in the order of bytes of the file. -/
def number (isBig : Bool) (n : Nat) : Scan Nat := if isBig then Scan.big n else Scan.little n

/-- The size of a value of a type of numbers: bytes, short, long and very long ones. -/
def numberSize? : Nat → Option Nat
  | 1 | 7 => some 1
  | 3 => some 2
  | 4 | 13 => some 4
  | 16 | 18 => some 8
  | _ => none

/-- Is there a type with the number? An entry of another type does not count. -/
def isType (n : Nat) : Bool := (1 ≤ n && n ≤ 13) || (16 ≤ n && n ≤ 18)

/-- An entry of a directory. -/
structure Entry where
  tag : Nat
  type : Nat
  count : Nat
  /-- The bytes of the value, or of its place. -/
  value : Bytes

/-- An entry of a directory. -/
def entry (isBig : Bool) : Scan Entry :=
  return ⟨← number isBig 2, ← number isBig 2, ← number isBig 4, ← Scan.bytes 4⟩

/-- A number of entries. -/
def entries (isBig : Bool) : Nat → Scan (List Entry)
  | 0 => return []
  | n + 1 => return (← entry isBig) :: (← entries isBig n)

/-- A number of numbers of a size. -/
def numbers (isBig : Bool) (size : Nat) : Nat → Scan (List Nat)
  | 0 => return []
  | n + 1 => return (← number isBig size) :: (← numbers isBig size n)

/-- A file with its directory. -/
structure Directory where
  file : Bytes
  isBig : Bool
  entries : List Entry

namespace Directory

/-- Is there an entry with the tag? -/
def has (d : Directory) (tag : Nat) : Bool := d.entries.any (·.tag == tag)

/-- The numbers under a tag, if there are any. They must be there if there is an entry. -/
def numbers? (d : Directory) (tag : Nat) : Option (Option (List Nat)) :=
  match d.entries.reverse.find? (·.tag == tag) with
  | none => some none
  | some e => do
    let size ← numberSize? e.type
    let bs ←
      if e.count * size ≤ 4 then some e.value
      else ((number d.isBig 4).run' e.value).map d.file.drop
    guard (e.count * size ≤ bs.length)
    return some (← (numbers d.isBig size e.count).run' bs)

/-- The number under a tag, or one for where there is no entry. -/
def numberOr (d : Directory) (tag default : Nat) : Option Nat :=
  match d.numbers? tag with
  | some none => some default
  | some (some [n]) => some n
  | _ => none

/-- The number under a tag. -/
def number? (d : Directory) (tag : Nat) : Option Nat :=
  if d.has tag then d.numberOr tag 0 else none

/-- Has each strip or tile a place and a size? -/
def hasPlaces (d : Directory) (height across : Nat) : Option Unit := do
  let isTiled := d.has 324 && d.has 325 && !d.has 273 && !d.has 279
  let isStripped := d.has 273 && d.has 279 && !d.has 324 && !d.has 325
  guard (isTiled ∨ isStripped)
  let places ← (← d.numbers? (if isTiled then 324 else 273))
  let sizes ← (← d.numbers? (if isTiled then 325 else 279))
  let width ← if isTiled then d.number? 322 else some across
  let length ← if isTiled then d.number? 323 else d.numberOr 278 height
  guard (0 < width ∧ 0 < length ∧ places.length = sizes.length)
  guard (places.length = ((height - 1) / length + 1) * ((across - 1) / width + 1))

/-- Is the way of compression declared soundly? The tables of one way have at least two bytes. -/
def hasCompression (d : Directory) : Option Unit := do
  let way ← d.numberOr 259 1
  guard (way ≤ 0xffff)
  if way = 7 ∧ d.has 347 then
    guard (2 ≤ (← (← d.numbers? 347)).length)

end Directory

/-- Are samples of the depth and the format read in a color space? There are one or two of gray,
three or four of red, green and blue, and four of the colors of print. Samples of 32 bits are
fractions, whether or not that is declared. -/
def isRead (space samples depth : Nat) (format : Option Nat) : Bool :=
  let isNatural := format.all (· == 1)
  let isWhole := isNatural && (depth = 8 || depth = 16)
  match space, samples with
  | 0, 1 | 1, 1 => isWhole || (isNatural && depth = 1)
  | 0, 2 | 1, 2 | 5, 4 => isWhole
  | 2, 3 | 2, 4 => isWhole || (format.all (· == 3) && depth = 32)
  | _, _ => false

/-- The dimensions in a directory. The samples of a pixel stand together. -/
def Directory.pixels? (d : Directory) : Option Pixels := do
  let width ← d.number? 256
  let height ← d.number? 257
  let space ← d.number? 262
  let samples ← d.numberOr 277 1
  let depths := (← d.numbers? 258).getD [1]
  let formats ← d.numbers? 339
  let planes ← d.numberOr 284 1
  let predictor ← d.numberOr 317 1
  guard (0 < width ∧ 0 < height ∧ 0 < samples)
  guard (depths.length = samples ∨ depths.length = 1)
  let depth ← depths.head?
  let format := formats.bind List.head?
  guard (depths.all (· == depth) ∧ (formats.getD []).all (some · == format) ∧ formats ≠ some [])
  guard (planes = 1 ∧ 1 ≤ predictor ∧ predictor ≤ 3)
  d.hasCompression
  d.hasPlaces height width
  guard (isRead space samples depth format)
  return (width, height)

/-- The dimensions of a TIFF file. -/
def pixels? (file : Bytes) : Option Pixels := do
  let isBig := file.head? = some 77
  let place ← (number isBig 4).run' (file.drop 4)
  let directory : Scan (List Entry) := do
    let es ← entries isBig (← number isBig 2)
    Scan.skip 4
    return es.filter fun e => isType e.type
  Directory.pixels? ⟨file, isBig, ← directory.run' (file.drop place)⟩

end Galley.Image.Raster.Tiff

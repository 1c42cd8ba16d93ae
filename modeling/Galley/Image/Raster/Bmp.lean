import Galley.Image.Raster.Scan

/-!
# BMP headers

A file header, a header of one of six sizes, and for some codings masks or a palette. An icon holds
the same without the file header, and its height counts twice.
-/

namespace Galley.Image.Raster.Bmp

/-- What a header declares. -/
structure Header where
  pixels : Pixels
  /-- The number of bytes of the palette after the header. -/
  palette : Nat

/-- The shortest header, after its size. -/
def core : Scan Header := do
  let width ← Scan.little 2
  let height ← Scan.little 2
  let planes ← Scan.little 2
  let depth ← Scan.little 2
  guard (0 < width ∧ 0 < height ∧ planes = 1 ∧ depth ∈ [1, 4, 8, 24])
  return ⟨(width, height), if depth ≤ 8 then 3 * Nat.pow 2 depth else 0⟩

/-- The numbers of bits of a pixel that a coding may have. -/
def depths : Nat → List Nat
  | 0 => [1, 2, 4, 8, 16, 24, 32]
  | 1 => [8]
  | 2 => [4]
  | 3 => [16, 32]
  | _ => []

/-- Are the ones of a mask neighbours, within a number of bits? -/
def isMask (depth mask : Nat) : Bool :=
  (List.range (depth + 1)).any fun high =>
    (List.range high).any fun low => mask == Nat.pow 2 high - Nat.pow 2 low

/-- The masks of three colors, and of opacity in the longer headers. -/
def masks (size depth : Nat) : Scan Unit := do
  let red ← Scan.little 4
  let green ← Scan.little 4
  let blue ← Scan.little 4
  let opacity ← if 56 ≤ size then Scan.little 4 else pure 0
  guard (isMask depth red ∧ isMask depth green ∧ isMask depth blue)
  guard (opacity = 0 ∨ isMask depth opacity)

/-- A header of some size, after the size. Rows that go down have a negative height, and are not
packed. -/
def info (size : Nat) : Scan Header := do
  let width ← Scan.little 4
  let height ← Scan.little 4
  let planes ← Scan.little 2
  let depth ← Scan.little 2
  let coding ← Scan.little 4
  Scan.skip 12
  let colors ← Scan.little 4
  Scan.skip 4
  let isDown := 0x80000000 < height
  guard (0 < width ∧ width ≤ 0xffff ∧ planes = 1 ∧ depth ∈ depths coding)
  guard (0 < height ∧ (height ≤ 0xffff ∨ isDown ∧ (coding = 0 ∨ coding = 3)))
  if coding = 3 then masks size depth
  let limit := Nat.pow 2 depth
  let colors := if colors = 0 then limit else colors
  let isIndexed := depth ≤ 8
  guard (isIndexed → colors ≤ limit)
  return ⟨(width, if isDown then 0x100000000 - height else height),
    if isIndexed then 4 * colors else 0⟩

/-- The dimensions in a header and the palette after it. -/
def header : Scan Pixels := do
  let start ← get
  let size ← Scan.little 4
  guard (size ∈ [12, 40, 52, 56, 108, 124])
  let h ← if size = 12 then core else info size
  guard (h.palette = 0 ∨ size + h.palette ≤ start.length)
  return h.pixels

/-- The dimensions of a BMP file. -/
def pixels : Scan Pixels := do
  Scan.word "BM"
  Scan.skip 12
  header

/-- The dimensions of an image in an icon. -/
def iconPixels : Scan Pixels := do
  let (width, height) ← header
  return (width, height / 2)

end Galley.Image.Raster.Bmp

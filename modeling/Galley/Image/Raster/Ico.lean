import Galley.Image.Raster.Bmp
import Galley.Image.Raster.Png

/-!
# Icons

An icon file lists images. The one that counts has the most bits a pixel, and of those the largest
area; among equals the last image, and then the first of the others. It is a PNG file or an image in
the manner of BMP.
-/

namespace Galley.Image.Raster.Ico

/-- An image in the list. -/
structure Entry where
  width : Nat
  height : Nat
  depth : Nat
  place : Nat

/-- A side, where zero stands for 256. -/
def side (n : Nat) : Nat := if n = 0 then 256 else n

/-- The rank of an image: bits a pixel before area. -/
def Entry.rank (e : Entry) : Nat := e.depth * 0x10001 + e.width * e.height

/-- An image in the list. -/
def entry : Scan Entry := do
  let width ← Scan.byte
  let height ← Scan.byte
  Scan.skip 2
  let planes ← Scan.little 2
  let depth ← Scan.little 2
  Scan.skip 4
  let place ← Scan.little 4
  guard (planes ≤ 256 ∧ depth ≤ 256)
  return ⟨side width, side height, depth, place⟩

/-- A number of images in the list. -/
def entries : Nat → Scan (List Entry)
  | 0 => return []
  | n + 1 => return (← entry) :: (← entries n)

/-- The image that counts. -/
def best? (es : List Entry) : Option Entry :=
  es.getLast?.map fun last =>
    es.dropLast.foldl (fun best e => if best.rank < e.rank then e else best) last

/-- The memory for a PNG file in an icon: two times four bytes for each of 256 times 256 pixels. -/
def room : Nat := 0x80000

/-- The dimensions of an icon file. -/
def pixels? (file : Bytes) : Option Pixels := do
  let list : Scan (List Entry) := do
    Scan.skip 4
    entries (← Scan.little 2)
  let e ← best? (← list.run' file)
  let image := file.drop e.place
  guard (8 ≤ image.length)
  if Png.signature.isPrefixOf image then
    let (width, height) ← (Png.pixels room).run' image
    guard (width ≤ e.width ∧ height ≤ e.height)
    return (width, height)
  else Bmp.iconPixels.run' image

end Galley.Image.Raster.Ico

import Galley.Image.Raster.Scan

/-!
# Formats with a header of fixed size

QOI and farbfeld files begin with a word and a few numbers.
-/

namespace Galley.Image.Raster

/-- Has the image at most so many bytes that their number fits 64 bits? -/
def isCountable (pixels : Pixels) (size : Nat) : Bool :=
  pixels.1 * pixels.2 ≤ 0xffffffffffffffff / size

/-- The dimensions of a QOI file: some pixels, and up to 400 million. -/
def qoiPixels : Scan Pixels := do
  Scan.word "qoif"
  let width ← Scan.big 4
  let height ← Scan.big 4
  let channels ← Scan.byte
  let space ← Scan.byte
  guard (0 < width * height ∧ width * height ≤ 400000000)
  guard ((channels = 3 ∨ channels = 4) ∧ space ≤ 1)
  return (width, height)

/-- The dimensions of a farbfeld file. -/
def farbfeldPixels : Scan Pixels := do
  Scan.word "farbfeld"
  let width ← Scan.big 4
  let height ← Scan.big 4
  guard (isCountable (width, height) 8)
  return (width, height)

end Galley.Image.Raster

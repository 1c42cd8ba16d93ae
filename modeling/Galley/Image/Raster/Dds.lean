import Galley.Image.Raster.Flat

/-!
# DDS headers

A header of fixed size, and for some codes an extension. Only textures that are compressed in blocks
of four by four pixels have dimensions.
-/

namespace Galley.Image.Raster.Dds

/-- The flags of a DDS header that must be set. -/
def required : Nat := 0x1007

/-- The flags of a DDS header that may be set. -/
def known : Nat := 0x8a100f

/-- Is it an extended DDS header with a block compression of the first three kinds? Of solid
textures there is one. -/
def extension : Scan Unit := do
  let format ← Scan.little 4
  let dimension ← Scan.little 4
  let flag ← Scan.little 4
  let count ← Scan.little 4
  Scan.skip 4
  guard (70 ≤ format ∧ format ≤ 78 ∧ 2 ≤ dimension ∧ dimension ≤ 4)
  guard ((flag = 0 ∨ flag = 4) ∧ (dimension = 4 → count = 1))

/-- The dimensions of a DDS file that is compressed in blocks of four by four pixels. -/
def pixels : Scan Pixels := do
  Scan.word "DDS "
  let size ← Scan.little 4
  let flags ← Scan.little 4
  let height ← Scan.little 4
  let width ← Scan.little 4
  Scan.skip 56
  let formatSize ← Scan.little 4
  let formatFlags ← Scan.little 4
  let code ← Scan.bytes 4
  Scan.skip 40
  guard (size = 124 ∧ flags &&& required = required ∧ flags ||| known = known)
  guard (formatSize = 32 ∧ formatFlags / 4 % 2 = 1)
  if code = Bytes.ofText "DX10" then extension
  else guard (code ∈ ["DXT1", "DXT3", "DXT5"].map Bytes.ofText)
  guard (width % 4 = 0 ∧ height % 4 = 0 ∧ isCountable (width, height) 4)
  return (width, height)

end Galley.Image.Raster.Dds

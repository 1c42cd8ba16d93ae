import Galley.Bytes.Deflate
import Galley.Image.Raster.Scan

/-!
# PNG headers

The dimensions stand in the first chunk. They count if the chunks after it are sound as far as the
first pixels, and if memory has room for one row of pixels, with palette and transparency spelled
out, beside texts and a color profile. A chunk that is not needed may have a wrong check sum or a
wrong size, and then does not count.
-/

namespace Galley.Image.Raster.Png

/-- What the pixels are made of. -/
inductive Color where
  | gray
  | rgb
  | indexed
  | grayAlpha
  | rgba
  deriving DecidableEq

namespace Color

/-- The color type with a number. -/
def ofNat? : Nat → Option Color
  | 0 => some gray
  | 2 => some rgb
  | 3 => some indexed
  | 4 => some grayAlpha
  | 6 => some rgba
  | _ => none

/-- The numbers of bits that a sample may have. -/
def depths : Color → List Nat
  | gray => [1, 2, 4, 8, 16]
  | indexed => [1, 2, 4, 8]
  | rgb | grayAlpha | rgba => [8, 16]

/-- The number of samples of a pixel that is spelled out. -/
def samples (transparent : Bool) : Color → Nat
  | gray => if transparent then 2 else 1
  | rgb | indexed => if transparent then 4 else 3
  | grayAlpha => 2
  | rgba => 4

end Color

/-- What the first chunk declares. -/
structure Header where
  width : Nat
  height : Nat
  depth : Nat
  color : Color

/-- The number of bytes of a row that is spelled out. -/
def Header.row (h : Header) (transparent : Bool) : Nat :=
  h.width * h.color.samples transparent * (if h.depth = 16 then 2 else 1)

/-- The data of the first chunk. -/
def header : Scan Header := do
  let width ← Scan.big 4
  let height ← Scan.big 4
  let depth ← Scan.byte
  let color ← Color.ofNat? (← Scan.byte)
  let compression ← Scan.byte
  let filter ← Scan.byte
  let interlace ← Scan.byte
  guard (0 < width ∧ 0 < height ∧ depth ∈ color.depths)
  guard (compression = 0 ∧ filter = 0 ∧ interlace ≤ 1 ∧ (← get) = [])
  return ⟨width, height, depth, color⟩

/-- May a reader pass over a chunk with the name? -/
def isAncillary (name : Bytes) : Bool :=
  match name with
  | first :: _ => first &&& 0x20 ≠ 0
  | [] => false

/-- The chunks before the pixels that are read. -/
inductive Chunk where
  | palette
  | transparency
  | colorCode
  | background
  | profile
  | text
  | camera
  | frameControl
  | frameData
  deriving DecidableEq

namespace Chunk

/-- The names of the chunks. -/
def named : List (String × Chunk) :=
  [("PLTE", palette), ("tRNS", transparency), ("cICP", colorCode), ("bKGD", background),
    ("iCCP", profile), ("tEXt", text), ("zTXt", text), ("iTXt", text), ("eXIf", camera),
    ("fcTL", frameControl), ("fdAT", frameData)]

/-- The chunk with a name. -/
def ofName? (name : Bytes) : Option Chunk :=
  (named.find? fun entry => Bytes.ofText entry.1 = name).map Prod.snd

/-- May the chunk have data of the size? The data of frames never come before the pixels. -/
def admits (size : Nat) : Chunk → Bool
  | palette => 3 ≤ size && size ≤ 768
  | transparency => 1 ≤ size && size ≤ 256
  | colorCode => size = 4
  | background => 1 ≤ size && size ≤ 6
  | profile | text | camera => true
  | frameControl => size = 26
  | frameData => false

/-- Is the file refused if the chunk has a wrong size? -/
def isStrict (c : Chunk) : Bool := c = palette || c = frameControl || c = frameData

end Chunk

/-- What the chunks before the pixels have said. -/
structure Prelude where
  /-- Is there a palette? -/
  palette : Bool
  /-- Is there transparency outside the pixels? -/
  transparency : Bool
  /-- Are there code points for the color space? -/
  colorCode : Bool
  /-- Was there a color profile, sound or not? -/
  profile : Bool
  /-- The number of the last frame control, if there was one. -/
  frame : Option Nat
  /-- The size of the largest chunk that needs no more memory. -/
  buffer : Nat
  /-- How many bytes of memory are left. -/
  room : Nat

namespace Prelude

/-- Nothing was said, and there is room for a number of bytes. -/
def start (room : Nat) : Prelude := ⟨false, false, false, false, none, 128, room⟩

/-- Memory is taken for good. -/
def take (p : Prelude) (size : Nat) : Option Prelude :=
  if size ≤ p.room then some { p with room := p.room - size } else none

/-- The memory for a chunk doubles until the chunk fits, as long as there is room. -/
def hold (p : Prelude) (size : Nat) : Option Prelude :=
  if size ≤ p.buffer then some p
  else
    let more := min (p.room - p.buffer) p.buffer
    if _h : 0 < more then hold { p with buffer := p.buffer + more, room := p.room - more } size
    else none
termination_by size - p.buffer

/-- A palette comes once. -/
def afterPalette (p : Prelude) : Option Prelude :=
  if p.palette then none else some { p with palette := true }

/-- Transparency counts where it fits the colors. -/
def afterTransparency (h : Header) (p : Prelude) (data : Bytes) : Prelude :=
  let fits := match h.color with
    | .gray => 2 ≤ data.length
    | .rgb => 6 ≤ data.length
    | .indexed => p.palette
    | .grayAlpha | .rgba => false
  { p with transparency := p.transparency || fits }

/-- Code points of a color space: primaries, transfer, a matrix that is zero, and a flag. They count
once, before a palette. -/
def afterColorCode (p : Prelude) (data : Bytes) : Option Prelude :=
  if p.palette || p.colorCode then some p
  else match data with
    | [_, _, 0, flag] => if flag ≤ 1 then some { p with colorCode := true } else none
    | _ => none

/-- A background that is one of the indexed colors comes after the palette. -/
def afterBackground (h : Header) (p : Prelude) : Option Prelude :=
  if h.color = .indexed ∧ !p.palette then none else some p

/-- The bytes of a compressed color profile, after its name and the way of compression. -/
def profile? (data : Bytes) : Option (Array UInt8) := do
  let name := data.takeWhile (· ≠ 0)
  guard (0 < name.length ∧ name.length ≤ 80)
  match data.drop name.length with
  | 0 :: 0 :: bs => Bytes.Deflate.expand? bs
  | _ => none

/-- A color profile counts once. If it is sound, it takes memory. -/
def afterProfile (p : Prelude) (data : Bytes) : Prelude :=
  if p.profile then p
  else
    let size := (profile? data).elim 0 Array.size
    { p with profile := true, room := if size ≤ p.room then p.room - size else p.room }

/-- The frames before the pixels are numbered and cover the image. -/
def frameControl (h : Header) (p : Prelude) : Scan Prelude := do
  let number ← Scan.big 4
  let width ← Scan.big 4
  let height ← Scan.big 4
  let left ← Scan.big 4
  let top ← Scan.big 4
  Scan.skip 4
  let disposal ← Scan.byte
  let blending ← Scan.byte
  guard (number = p.frame.elim 0 (· + 1) ∧ width = h.width ∧ height = h.height)
  guard (left = 0 ∧ top = 0 ∧ disposal ≤ 2 ∧ blending ≤ 1)
  return { p with frame := some number }

/-- What is known after a chunk that is sound so far. -/
def after (h : Header) (p : Prelude) (data : Bytes) : Chunk → Option Prelude
  | .palette => p.afterPalette
  | .transparency => some (p.afterTransparency h data)
  | .colorCode => p.afterColorCode data
  | .background => p.afterBackground h
  | .profile => some (p.afterProfile data)
  | .text => p.take data.length
  | .frameControl => (p.frameControl h).run' data
  | .camera | .frameData => some p

end Prelude

/-- One step of the cyclic redundancy check for each bit of a byte. -/
def crcBits : Nat → UInt32 → UInt32
  | 0, c => c
  | n + 1, c => crcBits n (if c &&& 1 = 1 then (0xedb88320 : UInt32) ^^^ (c >>> 1) else c >>> 1)

/-- The cyclic redundancy check of some bytes. -/
def crc (bs : Bytes) : Nat :=
  ((bs.foldl (fun c b => crcBits 8 (c ^^^ b.toUInt32)) 0xffffffff) ^^^ 0xffffffff).toNat

/-- The chunks up to the first one with pixels. What is not read is passed over if it may be. -/
def prelude (h : Header) : Nat → Prelude → Scan Prelude
  | 0, _ => failure
  | fuel + 1, p => do
    let size ← Scan.big 4
    let name ← Scan.bytes 4
    if name = Bytes.ofText "IDAT" then return p
    else match Chunk.ofName? name with
      | none =>
        guard (isAncillary name)
        Scan.skip (size + 4)
        prelude h fuel p
      | some chunk =>
        if chunk.admits size then
          let p ← p.hold size
          let data ← Scan.bytes size
          let check ← Scan.big 4
          if check = crc (name ++ data) then prelude h fuel (← p.after h data chunk)
          else
            guard (isAncillary name)
            prelude h fuel p
        else
          guard (!chunk.isStrict)
          Scan.skip (size + 4)
          prelude h fuel p

/-- The first bytes of a PNG file. -/
def signature : Bytes := [0x89, 0x50, 0x4e, 0x47, 0x0d, 0x0a, 0x1a, 0x0a]

/-- The dimensions of a PNG file, for a number of bytes of memory. -/
def pixels (room : Nat) : Scan Pixels := do
  guard ((← Scan.bytes 8) = signature)
  let size ← Scan.big 4
  let kind ← Scan.bytes 4
  guard (kind = Bytes.ofText "IHDR")
  let data ← Scan.bytes size
  guard ((← Scan.big 4) = crc (kind ++ data))
  let h ← header.run' data
  let p ← prelude h (← get).length (.start room)
  guard (h.row p.transparency ≤ p.room)
  return (h.width, h.height)

/-- The memory for one image: 512 MiB. -/
def room : Nat := 0x20000000

end Galley.Image.Raster.Png

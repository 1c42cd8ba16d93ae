import Galley.Image.Raster.Scan

/-!
# WebP headers

A file with one lossy or lossless image has its dimensions in the header of that image. An extended
file has those of its canvas, and they count if the chunks that its flags announce are there.
-/

namespace Galley.Image.Raster.Webp

/-- The dimensions of a lossy image. -/
def lossy : Scan Pixels := do
  let first ← Scan.byte
  Scan.skip 2
  guard (first % 2 = 0 ∧ (← Scan.bytes 3) = [0x9d, 0x01, 0x2a])
  let width := (← Scan.little 2) % 0x4000
  let height := (← Scan.little 2) % 0x4000
  guard (0 < width ∧ 0 < height)
  return (width, height)

/-- The dimensions of a lossless image. The largest ones are written as zero. -/
def lossless : Scan Pixels := do
  guard ((← Scan.byte) = 0x2f)
  let n ← Scan.little 4
  guard (n < 0x20000000)
  return ((n + 1) % 0x4000, (n / 0x4000 + 1) % 0x4000)

/-- A chunk: its kind, the place of its data in the file, and their size. -/
structure Chunk where
  kind : Bytes
  place : Nat
  size : Nat

/-- The size with the byte that makes it even. -/
def Chunk.padded (c : Chunk) : Nat := c.size + c.size % 2

/-- The chunk that begins with the next bytes, which are at a place of a file. -/
def chunk (place : Nat) : Scan Chunk := do
  let kind ← Scan.bytes 4
  return ⟨kind, place + 8, ← Scan.little 4⟩

/-- The chunk that begins at a place of a file. -/
def chunkAt? (file : Bytes) (place : Nat) : Option Chunk := (chunk place).run' (file.drop place)

/-- Is the chunk of the kind? -/
def Chunk.isKind (c : Chunk) (kind : String) : Bool := c.kind == Bytes.ofText kind

/-- The header of a frame. Is its first part lossy? -/
def frame : Scan Bool := do
  Scan.skip 16
  let part ← chunk 0
  return part.isKind "VP8 " || part.isKind "ALPH"

/-- The chunks in the bytes from a place to an end. Each frame of an animation has room for its
header. Until it is known that a part is lossy, a frame shows the header of its first part. -/
def chunks? (stop : Nat) : Nat → Nat → Bool → Bytes → Option (List Chunk)
  | 0, _, _, _ => some []
  | fuel + 1, place, isLossy, bs =>
    if stop ≤ place then some []
    else match (chunk place).run bs with
      | none => some []
      | some (c, data) =>
        let rest isLossy := chunks? stop fuel (c.place + c.padded) isLossy (data.drop c.padded)
        if c.isKind "ANMF" then do
          guard (24 ≤ c.size)
          let isLossy ←
            if isLossy then ((Scan.skip 16).run' data).map fun _ => true else frame.run' data
          return c :: (← rest isLossy)
        else return c :: (← rest isLossy)

/-- Is there a second part after the first one of a frame, wherever the frame has room for it? -/
def hasParts (file : Bytes) (frame : Chunk) : Bool :=
  match chunkAt? file (frame.place + 16) with
  | none => false
  | some part =>
    frame.place + frame.size < part.place + part.padded + 8 ||
      (chunkAt? file (frame.place + 24)).isSome

/-- What an extended file announces. -/
structure Canvas where
  flags : Nat
  width : Nat
  height : Nat

/-- The header of an extended file. -/
def canvas : Scan Canvas := do
  let flags ← Scan.byte
  Scan.skip 3
  let width := (← Scan.little 3) + 1
  let height := (← Scan.little 3) + 1
  guard (width * height < 0x100000000)
  return ⟨flags, width, height⟩

/-- Are the announced chunks there? An image that does not move has either one lossy or one lossless
part. -/
def Canvas.isComplete (v : Canvas) (file : Bytes) (cs : List Chunk) : Bool :=
  let find? (kind : String) := cs.find? (·.isKind kind)
  let has (kind : String) := (find? kind).isSome
  let isAnimated := v.flags / 2 % 2 = 1
  let isPresent :=
    if isAnimated then
      has "ANMF" && (find? "ANIM").any fun c => c.size = 6 ∧ c.place + 6 ≤ file.length
    else has "VP8 " != has "VP8L"
  isPresent && (v.flags / 8 % 2 = 0 || has "EXIF") && (v.flags / 4 % 2 = 0 || has "XMP ") &&
    (find? "ANMF").all (hasParts file)

/-- The dimensions of a WebP file. -/
def pixels? (file : Bytes) : Option Pixels := do
  let riff ← chunkAt? file 0
  guard (riff.isKind "RIFF" ∧ (file.drop 8).take 4 = Bytes.ofText "WEBP")
  let c ← chunkAt? file 12
  let data := file.drop c.place
  if c.isKind "VP8 " then lossy.run' data
  else if c.isKind "VP8L" then lossless.run' data
  else if c.isKind "VP8X" then
    let v ← canvas.run' data
    let start := c.place + c.padded
    let cs ← chunks? (start + (riff.size - 12)) file.length start false (file.drop start)
    guard (v.isComplete file cs)
    return (v.width, v.height)
  else none

end Galley.Image.Raster.Webp

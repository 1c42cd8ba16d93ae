import Galley.Image.Raster.Scan

/-!
# JPEG headers

The dimensions stand in the frame header. They count if every segment up to the header of the first
scan is sound: tables of quantization and of Huffman codes, one frame of eight bits a sample, and a
scan of components of the frame.
-/

namespace Galley.Image.Raster.Jpeg

/-- What a frame header declares. -/
structure Frame where
  width : Nat
  height : Nat
  /-- The names of the components. -/
  names : List UInt8

/-- The names of components. Each samples one, two or four columns and up to four rows, and uses one
of four tables. -/
def names? : Bytes → Option (List UInt8)
  | [] => some []
  | name :: sampling :: table :: bs => do
    guard (sampling.toNat / 16 ∈ [1, 2, 4] ∧ sampling.toNat % 16 ∈ [1, 2, 3, 4] ∧ table < 4)
    return name :: (← names? bs)
  | _ => none

/-- The data of a frame header. -/
def frame : Scan Frame := do
  let precision ← Scan.byte
  let height ← Scan.big 2
  let width ← Scan.big 2
  let count ← Scan.byte
  let components ← get
  guard (precision = 8 ∧ 0 < width ∧ 0 < height)
  guard (1 ≤ count ∧ count ≤ 4 ∧ components.length = 3 * count)
  return ⟨width, height, ← names? components⟩

/-- Are these sound quantization tables? Each has 64 numbers of one or two bytes. -/
def areQuantizers : Bytes → Bool
  | [] => true
  | kind :: bs =>
    let size := 64 * (kind.toNat / 16 + 1)
    kind.toNat / 16 ≤ 1 && kind.toNat % 16 < 4 && size ≤ bs.length &&
      areQuantizers (bs.drop size)
termination_by bs => bs.length
decreasing_by rw [List.length_drop, List.length_cons]; omega

/-- Do codes of one bit, two bits and so on exist in these numbers, with a word to spare? Each word
that is no code has two longer ones. -/
def isCode (counts : Bytes) : Bool :=
  0 < counts.foldl (fun spare n => 2 * spare - n.toNat) 1

/-- Are these sound Huffman tables? A table has the numbers of codes of each length and a symbol for
every code. A symbol of a table for mean values is a number of bits, at most fifteen. -/
def areCodes : Bytes → Bool
  | [] => true
  | kind :: bs =>
    let counts := bs.take 16
    let size := counts.foldl (fun n c => n + c.toNat) 0
    let symbols := (bs.drop 16).take size
    kind.toNat / 16 ≤ 1 && kind.toNat % 16 < 4 && 16 ≤ bs.length && size ≤ 256 &&
      16 + size ≤ bs.length && isCode counts && (16 ≤ kind || symbols.all (· ≤ 15)) &&
      areCodes (bs.drop (16 + size))
termination_by bs => bs.length
decreasing_by rw [List.length_drop, List.length_cons]; omega

/-- The components that a scan header selects. -/
def selected : Bytes → List UInt8
  | name :: _ :: bs => name :: selected bs
  | _ => []

/-- Is it the header of a scan of the frame? It selects up to four different components, and gives
the bounds of the spectrum and of the approximation. -/
def isScan (f : Frame) (data : Bytes) : Bool :=
  match data with
  | [] => false
  | count :: bs =>
    let names := selected (bs.take (2 * count.toNat))
    1 ≤ count && count ≤ 4 && bs.length == 2 * count.toNat + 3 &&
      names.all f.names.contains && decide names.Nodup &&
      match bs.drop (2 * count.toNat) with
      | [first, last, approximation] =>
        first ≤ 63 && last ≤ 63 && approximation.toNat / 16 ≤ 13 && approximation.toNat % 16 ≤ 13
      | _ => false

/-- The name of the vocabulary before a part of a description that did not fit into one segment. -/
def descriptionPart : Bytes :=
  [0x68, 0x74, 0x74, 0x70, 0x3a, 0x2f, 0x2f, 0x6e, 0x73, 0x2e, 0x61, 0x64, 0x6f, 0x62, 0x65,
    0x2e, 0x63, 0x6f, 0x6d, 0x2f, 0x78, 0x6d, 0x70, 0x2f, 0x65, 0x78, 0x74, 0x65, 0x6e, 0x73,
    0x69, 0x6f, 0x6e, 0x2f, 0x00]

/-- Is the part of a description sound? A digest, the whole size and the place of the part come
first, in forty bytes. Nothing at all is sound too. -/
def isDescription (data : Bytes) : Bool :=
  !descriptionPart.isPrefixOf data || data.length = descriptionPart.length ||
    descriptionPart.length + 40 ≤ data.length

/-- Markers that no file with a readable header has before its first scan: the end, the settings of
an arithmetic coder, and a number of lines that comes late. -/
def isRefused (marker : UInt8) : Bool := [0xcc, 0xd9, 0xdc].contains marker

/-- The frame that is known after a segment. -/
def afterSegment (found : Option Frame) (marker : UInt8) (data : Bytes) :
    Option (Option Frame) :=
  if 0xc0 ≤ marker ∧ marker ≤ 0xc2 then
    if found.isSome then none else (frame.run' data).map some
  else
    let isSound :=
      if marker = 0xdb then areQuantizers data
      else if marker = 0xc4 then areCodes data
      else if marker = 0xdd then data.length = 2
      else if marker = 0xe1 then isDescription data
      else true
    if isSound then some found else none

/-- The name of the program whose segments declare a color transform. -/
def transformName : Bytes := [0x41, 0x64, 0x6f, 0x62, 0x65]

/-- The segment of a drawing program. If the bytes there begin with its name, even where they are
more than the segment has, the segment declares one of three color transforms. -/
def transform (size : Nat) : Scan Bytes := do
  let isNamed := transformName.isPrefixOf (← get)
  let data ← Scan.bytes (size - 2)
  guard (isNamed → data[11]?.any (· ≤ 2))
  return data

/-- The data of a segment, whose size comes first and counts itself. The kind of segment that opens
most files never ends after four bytes of data: there it takes in the byte behind them. -/
def segment (marker : UInt8) : Scan Bytes := do
  let size ← Scan.big 2
  guard (2 ≤ size)
  if marker = 0xe0 ∧ size = 6 then Scan.bytes 5
  else if marker = 0xee then transform size
  else Scan.bytes (size - 2)

/-- The dimensions in the segments of a file, given the byte before and the frame found so far.
Bytes between segments do not count. -/
def segments : Nat → UInt8 → Option Frame → Bytes → Option Pixels
  | fuel + 1, before, found, m :: bs =>
    if before ≠ 0xff ∨ m = 0xff ∨ m = 0 then segments fuel m found bs
    else if isRefused m then none
    else do
      let (data, rest) ← (segment m).run bs
      if m = 0xda then
        let f ← found
        guard (isScan f data)
        return (f.width, f.height)
      else segments fuel m (← afterSegment found m data) rest
  | _, _, _, _ => none

/-- The dimensions of a JPEG file. -/
def pixels : Scan Pixels := do
  guard ((← Scan.bytes 2) = [0xff, 0xd8])
  let bs ← get
  segments bs.length 0 none bs

end Galley.Image.Raster.Jpeg

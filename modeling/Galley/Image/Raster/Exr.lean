import Galley.Image.Raster.Scan

/-!
# OpenEXR headers

The header of each part of a file is a list of attributes, each with a name, a kind and a value. The
dimensions are those of the display window of the first part with channels for red, green and blue.
-/

namespace Galley.Image.Raster.Exr

/-- The next number with a sign, in four bytes. -/
def signed : Scan Int := do
  let n ← Scan.little 4
  return if n < 0x80000000 then n else n - 0x100000000

/-- The text up to a zero byte: at least one byte, and at most a number of them. -/
def text (most : Nat) : Scan Bytes
  | [] => none
  | first :: bs =>
    let more := bs.takeWhile (· ≠ 0)
    if more.length < bs.length ∧ more.length < most then
      some (first :: more, bs.drop (more.length + 1))
    else none

/-- Does a list end here? The zero byte at its end is passed over. -/
def atEnd : Scan Bool
  | [] => none
  | 0 :: bs => some (true, bs)
  | bs => some (false, bs)

/-- What the flags of a file say. -/
structure Flags where
  /-- Is the only part made of tiles? -/
  isTiled : Bool
  hasLongNames : Bool
  hasParts : Bool

/-- The version, which is two at most, and the flags. There may be neither deep parts nor flags that
are not known, and tiles are announced only of a file with one part. -/
def flags : Scan Flags := do
  let n ← Scan.little 4
  let version := n % 16
  let isSet (bit : Nat) := n / Nat.pow 2 bit % 2 = 1
  guard (n < 0x2000 ∧ 1 ≤ version ∧ version ≤ 2 ∧ ¬ isSet 11)
  guard (isSet 12 → version = 2 ∧ ¬ isSet 9)
  return ⟨isSet 9, isSet 10, isSet 12⟩

/-! ## Attributes -/

/-- An attribute. -/
structure Attribute where
  name : Bytes
  kind : Bytes
  value : Bytes

/-- The attributes of a part. -/
def attributes (longest : Nat) : Nat → Scan (List Attribute)
  | 0 => failure
  | fuel + 1 => do
    if ← atEnd then return []
    let name ← text longest
    let kind ← text longest
    let size ← Scan.little 4
    let a := ⟨name, kind, ← Scan.bytes size⟩
    return a :: (← attributes longest fuel)

/-- The value of the last attribute of the name and the kind that can be read. -/
def value? {α : Type} (as : List Attribute) (name kind : String) (read : Scan α) : Option α :=
  as.reverse.findSome? fun a =>
    if a.name = Bytes.ofText name ∧ a.kind = Bytes.ofText kind then read.run' a.value else none

/-- A rectangle of pixels. -/
structure Window where
  left : Int
  top : Int
  width : Nat
  height : Nat

/-- The rectangle between two corners, neither too far from the origin. -/
def window : Scan Window := do
  let x ← signed
  let y ← signed
  let u ← signed
  let v ← signed
  let isNear (a : Int) : Bool := -0x3fffffff < a ∧ a < 0x3fffffff
  guard (isNear x ∧ isNear y ∧ isNear u ∧ isNear v)
  return ⟨min x u, min y v, (max x u - min x u).toNat + 1, (max y v - min y v).toNat + 1⟩

/-- A channel: its name, and whether every pixel has a sample. -/
structure Channel where
  name : Bytes
  isDense : Bool

/-- The channels up to the end of a list. -/
def channels : Nat → Scan (List Channel)
  | 0 => failure
  | fuel + 1 => do
    if ← atEnd then return []
    let name ← text 256
    let sample ← Scan.little 4
    let linear ← Scan.byte
    Scan.skip 3
    let across ← Scan.little 4
    let down ← Scan.little 4
    guard (sample ≤ 2 ∧ linear ≤ 1 ∧ across < 0x80000000 ∧ down < 0x80000000)
    return ⟨name, across = 1 && down = 1⟩ :: (← channels fuel)

/-- The sizes of tiles, and how smaller versions of an image are made. -/
def tiles : Scan Unit := do
  let width ← Scan.little 4
  let height ← Scan.little 4
  let mode ← Scan.byte
  guard (0 < width ∧ width < 0x3fffffff ∧ 0 < height ∧ height < 0x3fffffff)
  guard (mode % 16 ≤ 2 ∧ mode / 16 ≤ 1)

/-- A number of one byte up to a greatest one. -/
def choice (greatest : Nat) : Scan Unit := do
  guard ((← Scan.byte) ≤ greatest)

/-! ## Parts -/

/-- A part of a file. -/
structure Part where
  pixels : Pixels
  /-- Are there channels for red, green and blue? -/
  isColored : Bool
  isNamed : Bool

/-- Do the names follow each other in order? -/
def isOrdered (cs : List Channel) : Bool :=
  (cs.zip (cs.drop 1)).all fun (c, d) => !decide (d.name < c.name)

/-- The part with the attributes. It has all that every part needs, and is not deep. -/
def part? (f : Flags) (as : List Attribute) : Option Part := do
  let display ← value? as "displayWindow" "box2i" window
  let _ ← value? as "dataWindow" "box2i" window
  let cs ← value? as "channels" "chlist" (do channels ((← get).length + 1))
  value? as "compression" "compression" (choice 9)
  value? as "lineOrder" "lineOrder" (choice 2)
  value? as "pixelAspectRatio" "float" (Scan.skip 4)
  value? as "screenWindowCenter" "v2f" (Scan.skip 8)
  value? as "screenWindowWidth" "float" (Scan.skip 4)
  let type := value? as "type" "string" get
  guard (type.all fun t => ["scanlineimage", "tiledimage"].any (Bytes.ofText · = t))
  let isTiled := type.elim f.isTiled (· = Bytes.ofText "tiledimage")
  if isTiled then value? as "tiles" "tiledesc" tiles
  guard (cs ≠ [] ∧ cs.all (·.isDense) ∧ isOrdered cs)
  let has (name : String) := cs.any fun c => c.name = Bytes.ofText name
  return ⟨(display.width, display.height), has "R" && has "G" && has "B",
    (value? as "name" "string" get).isSome⟩

/-- The parts up to the end of a list. -/
def parts (f : Flags) (longest : Nat) : Nat → Scan (List Part)
  | 0 => failure
  | fuel + 1 => do
    if ← atEnd then return []
    let part ← part? f (← attributes longest ((← get).length + 1))
    return part :: (← parts f longest fuel)

/-- The dimensions of an OpenEXR file. -/
def pixels : Scan Pixels := do
  guard ((← Scan.bytes 4) = [0x76, 0x2f, 0x31, 0x01])
  let f ← flags
  let longest := if f.hasLongNames then 256 else 32
  let fuel := (← get).length + 1
  let ps ← if f.hasParts then parts f longest fuel else
    (do return [← part? f (← attributes longest fuel)] : Scan (List Part))
  guard (ps.length ≤ 1 ∨ ps.all (·.isNamed))
  let p ← ps.find? (·.isColored)
  return p.pixels

end Galley.Image.Raster.Exr

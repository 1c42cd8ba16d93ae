import Galley.Image.Raster.Scan

/-!
# GIF headers

The dimensions are those of the logical screen. They count if any block begins after the color table
and sound extensions.
-/

namespace Galley.Image.Raster.Gif

/-- The size of the last sub-block before an empty one, and what follows that. It is the number that
is given if there is none before it. -/
def lastSubBlock (last : Nat) : Bytes → Option (Nat × Bytes)
  | [] => none
  | size :: bs =>
    if size = 0 then some (last, bs)
    else if (bs.take size.toNat).length = size.toNat then
      lastSubBlock size.toNat (bs.drop size.toNat)
    else none
termination_by bs => bs.length
decreasing_by rw [List.length_drop, List.length_cons]; omega

/-- Is the extension sound? The last sub-block of a graphic control has four bytes. Plain text,
comments and what belongs to an application may have any, and there are no others. -/
def isExtension (label : UInt8) (last : Nat) : Bool :=
  if label = 0xf9 then last = 4 else label = 0x01 || label = 0xfe || label = 0xff

/-- Does a block other than an extension begin? One byte more shows that it does, but the mark of
the end needs no other byte where it follows an extension. -/
def reachesBlock : Nat → Bool → Bytes → Bool
  | fuel + 1, isExtended, kind :: bs =>
    if kind = 0x21 then
      match bs with
      | label :: bs =>
        match lastSubBlock 0 bs with
        | some (last, rest) => isExtension label last && reachesBlock fuel true rest
        | none => false
      | [] => false
    else !bs.isEmpty || (isExtended && kind = 0x3b)
  | _, _, _ => false

/-- The dimensions of a GIF file. -/
def pixels : Scan Pixels := do
  let signature ← Scan.bytes 6
  guard (signature = Bytes.ofText "GIF87a" ∨ signature = Bytes.ofText "GIF89a")
  let width ← Scan.little 2
  let height ← Scan.little 2
  let flags ← Scan.byte
  Scan.skip 2
  Scan.skip (if 128 ≤ flags then 3 * Nat.pow 2 (flags % 8 + 1) else 0)
  let bs ← get
  guard (reachesBlock bs.length false bs)
  return (width, height)

end Galley.Image.Raster.Gif

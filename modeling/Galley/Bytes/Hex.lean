/-!
# Bytes and their hexadecimal text
-/

namespace Galley

/-- A sequence of bytes. -/
abbrev Bytes := List UInt8

namespace Bytes

/-- Two lower-case hexadecimal digits a byte. -/
def hex (bs : Bytes) : List Char :=
  bs.flatMap fun b => [Nat.digitChar (b.toNat / 16), Nat.digitChar (b.toNat % 16)]

/-- The value of a hexadecimal digit of either case. -/
def hexDigit? (c : Char) : Option Nat :=
  if '0' ≤ c ∧ c ≤ '9' then some (c.toNat - '0'.toNat)
  else if 'a' ≤ c ∧ c ≤ 'f' then some (c.toNat - 'a'.toNat + 10)
  else if 'A' ≤ c ∧ c ≤ 'F' then some (c.toNat - 'A'.toNat + 10)
  else none

/-- The bytes that hexadecimal digits denote, two digits a byte. -/
def ofHex? : List Char → Option Bytes
  | [] => some []
  | a :: b :: s => do
    let a ← hexDigit? a
    let b ← hexDigit? b
    let bs ← ofHex? s
    some (UInt8.ofNat (a * 16 + b) :: bs)
  | [_] => none

/-- The number with the given bytes, the most significant one first. -/
def bigEndian (bs : Bytes) : Nat := bs.foldl (fun n b => n * 256 + b.toNat) 0

/-- The number with the given bytes, the least significant one first. -/
def littleEndian (bs : Bytes) : Nat := bs.reverse.foldl (fun n b => n * 256 + b.toNat) 0

end Bytes

end Galley

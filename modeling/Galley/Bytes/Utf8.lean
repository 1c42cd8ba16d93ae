import Galley.Bytes.Hex

/-!
# Text in UTF-8

Encoding, and a decoder that accepts every sequence of bytes: the longest beginning of a character
that breaks off becomes one replacement character.
-/

namespace Galley.Bytes

/-- The text in UTF-8. -/
def ofText (s : String) : Bytes := s.toList.flatMap String.utf8EncodeChar

/-- The character that stands for bytes that are not text. -/
def replacement : Char := Char.ofNat 0xfffd

/-- Is the byte a continuation byte? -/
def isContinuation (b : UInt8) : Bool := 0x80 ≤ b && b ≤ 0xbf

/-- The number of bytes of a character, by its first byte, and the bounds of its second byte. -/
def lead? (b : UInt8) : Option (Nat × UInt8 × UInt8) :=
  if 0xc2 ≤ b && b ≤ 0xdf then some (2, 0x80, 0xbf)
  else if b == 0xe0 then some (3, 0xa0, 0xbf)
  else if b == 0xed then some (3, 0x80, 0x9f)
  else if 0xe1 ≤ b && b ≤ 0xef then some (3, 0x80, 0xbf)
  else if b == 0xf0 then some (4, 0x90, 0xbf)
  else if 0xf1 ≤ b && b ≤ 0xf3 then some (4, 0x80, 0xbf)
  else if b == 0xf4 then some (4, 0x80, 0x8f)
  else none

/-- The bytes after the first one that belong to its character: at most `n`, the first of them
within bounds. -/
def tail (n : Nat) (low high : UInt8) : Bytes → Bytes
  | [] => []
  | b :: bs =>
    if low ≤ b && b ≤ high then b :: (bs.take (n - 1)).takeWhile isContinuation else []

/-- The six bits of a continuation byte appended to a number. -/
def appendBits (n : Nat) (b : UInt8) : Nat := n * 64 + b.toNat % 64

/-- The first character of some bytes, given the first byte, and the number of bytes after it
that it takes. -/
def firstChar (b : UInt8) (bs : Bytes) : Char × Nat :=
  if b < 0x80 then (Char.ofNat b.toNat, 0)
  else match lead? b with
    | none => (replacement, 0)
    | some (width, low, high) =>
      let rest := tail (width - 1) low high bs
      if rest.length = width - 1 then
        (Char.ofNat (rest.foldl appendBits (b.toNat % Nat.pow 2 (7 - width))), rest.length)
      else (replacement, rest.length)

/-- The text that bytes denote, with replacement characters for what is not text. -/
def toTextLossy : Bytes → List Char
  | [] => []
  | b :: bs =>
    let (c, n) := firstChar b bs
    c :: toTextLossy (bs.drop n)
termination_by bs => bs.length
decreasing_by rw [List.length_drop, List.length_cons]; omega

end Galley.Bytes

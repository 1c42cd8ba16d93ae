import Galley.Bytes.Hex

/-!
# Compressed bytes

A reader of the deflate format with its header and its check sum. A block holds bytes as they are,
or words of two prefix codes: one for single bytes and for the sizes of copies, the other for the
distances of copies.
-/

namespace Galley.Bytes.Deflate

/-- What is read from the beginning of a row of bits, and the bits after that. -/
abbrev Reader (α : Type) := StateT (List Bool) Option α

/-- The bits of some bytes, those of each byte from the least significant one. -/
def bits (bs : Bytes) : List Bool := bs.flatMap fun b => (List.range 8).map b.toNat.testBit

/-- The next bit. -/
def bit : Reader Bool
  | [] => none
  | b :: bs => some (b, bs)

/-- The number in the next bits, the least significant one first. -/
def number : Nat → Reader Nat
  | 0 => return 0
  | n + 1 => do
    let b ← bit
    return b.toNat + 2 * (← number n)

/-- The bits up to a whole byte are passed over. -/
def align : Reader Unit := modify fun bs => bs.drop (bs.length % 8)

/-! ## Prefix codes -/

/-- A prefix code. Its words are in the order of their lengths, and those of one length in the order
of their symbols. -/
structure Code where
  /-- The numbers of words of one bit, of two bits and so on. -/
  counts : List Nat
  /-- The symbols in the order of their words. -/
  symbols : Array Nat

namespace Code

/-- The code with words of these lengths for the symbols from zero. Length zero is no word. -/
def ofLengths (lengths : List Nat) : Code where
  counts := (List.range 15).map fun n => lengths.count (n + 1)
  symbols := ((List.range 15).flatMap fun n =>
    lengths.zipIdx.filterMap fun (l, symbol) => if l = n + 1 then some symbol else none).toArray

/-- Does every row of bits begin with a word? -/
def isFull (c : Code) : Bool := c.counts.foldl (fun used n => 2 * used + n) 0 = 0x8000

/-- Is there at most one word, of one bit? -/
def isTrivial (c : Code) : Bool := c.symbols.size ≤ 1 && c.symbols.size = c.counts.headD 0

/-- The place of the next word among all words, given how many shorter words there are and how far
the bits read so far are after the last of them. -/
def place : List Nat → Nat → Nat → Reader Nat
  | [], _, _ => failure
  | count :: counts, shorter, distance => do
    let distance := 2 * distance + (← bit).toNat
    if distance < count then return shorter + distance
    else place counts (shorter + count) (distance - count)

/-- The symbol of the next word. -/
def symbol (c : Code) : Reader Nat := do
  let i ← place c.counts 0 0
  c.symbols[i]?

end Code

/-! ## Copies -/

/-- Ranges of numbers that follow each other, the first from a start. Each is given by the number of
its bits. -/
def ranges (start : Nat) : List Nat → List (Nat × Nat)
  | [] => []
  | n :: ns => (start, n) :: ranges (start + Nat.pow 2 n) ns

/-- The sizes of copies. The greatest size is alone. -/
def sizes : List (Nat × Nat) :=
  ranges 3 [0, 0, 0, 0, 0, 0, 0, 0, 1, 1, 1, 1, 2, 2, 2, 2, 3, 3, 3, 3, 4, 4, 4, 4, 5, 5, 5, 5] ++
    [(258, 0)]

/-- The distances of copies. -/
def distances : List (Nat × Nat) :=
  ranges 1 [0, 0, 0, 0, 1, 1, 2, 2, 3, 3, 4, 4, 5, 5, 6, 6, 7, 7, 8, 8, 9, 9, 10, 10, 11, 11, 12, 12,
    13, 13]

/-- A number of a range. -/
def amount (rs : List (Nat × Nat)) (i : Nat) : Reader Nat := do
  let (start, n) ← rs[i]?
  return start + (← number n)

/-- The bytes with `n` more, each a copy of the one at a distance. -/
def copy (distance : Nat) : Nat → Array UInt8 → Array UInt8
  | 0, out => out
  | n + 1, out => copy distance n (out.push (out.getD (out.size - distance) 0))

/-! ## Blocks -/

/-- The bytes with those of a block that is coded. -/
def coded (literals back : Code) : Nat → Array UInt8 → Reader (Array UInt8)
  | 0, _ => failure
  | fuel + 1, out => do
    let s ← literals.symbol
    if s < 256 then coded literals back fuel (out.push s.toUInt8)
    else if s = 256 then return out
    else
      let n ← amount sizes (s - 257)
      let distance ← amount distances (← back.symbol)
      guard (distance ≤ out.size)
      coded literals back fuel (copy distance n out)

/-- The code for single bytes and sizes that needs no description. -/
def fixedLiterals : Code :=
  .ofLengths (List.replicate 144 8 ++ List.replicate 112 9 ++ List.replicate 24 7 ++
    List.replicate 8 8)

/-- The code for distances that needs no description. -/
def fixedBack : Code := .ofLengths (List.replicate 32 5)

/-- The lengths of words up to a number of them, the last one first. A length or a run of zeros may
be repeated. -/
def lengths (code : Code) (total : Nat) : Nat → List Nat → Reader (List Nat)
  | 0, _ => failure
  | fuel + 1, ls =>
    if total ≤ ls.length then do
      guard (ls.length = total)
      return ls
    else do
      let s ← code.symbol
      if s < 16 then lengths code total fuel (s :: ls)
      else if s = 16 then
        let last ← ls.head?
        lengths code total fuel (List.replicate (3 + (← number 2)) last ++ ls)
      else if s = 17 then lengths code total fuel (List.replicate (3 + (← number 3)) 0 ++ ls)
      else lengths code total fuel (List.replicate (11 + (← number 7)) 0 ++ ls)

/-- The order in which the code of the lengths is described. -/
def order : List Nat := [16, 17, 18, 0, 8, 7, 9, 6, 10, 5, 11, 4, 12, 3, 13, 2, 14, 1, 15]

/-- The numbers in the next bits, `n` bits each. -/
def numbers (n : Nat) : Nat → Reader (List Nat)
  | 0 => return []
  | k + 1 => return (← number n) :: (← numbers n k)

/-- The two codes of a block, described by the lengths of their words. There is a word for the end
of the block. -/
def described : Reader (Code × Code) := do
  let literals := (← number 5) + 257
  let back := (← number 5) + 1
  let given ← numbers 3 ((← number 4) + 4)
  guard (literals ≤ 286 ∧ back ≤ 30)
  let code := Code.ofLengths ((List.range 19).map fun s => given.getD (order.idxOf s) 0)
  guard code.isFull
  let ls := (← lengths code (literals + back) (literals + back + 1) []).reverse
  let first := Code.ofLengths (ls.take literals)
  let second := Code.ofLengths (ls.drop literals)
  guard (first.isFull ∧ 256 ∈ first.symbols ∧ (second.isFull ∨ second.isTrivial))
  return (first, second)

/-- The bytes with those of a block that is not coded. Their number comes first, and its complement
after it. -/
def stored (out : Array UInt8) : Reader (Array UInt8) := do
  align
  let n ← number 16
  guard (n + (← number 16) = 0xffff)
  return out ++ ((← numbers 8 n).map Nat.toUInt8)

/-- The bytes of all blocks up to the last one. -/
def blocks : Nat → Array UInt8 → Reader (Array UInt8)
  | 0, _ => failure
  | fuel + 1, out => do
    let isLast ← bit
    let kind ← number 2
    let out ←
      if kind = 0 then stored out
      else if kind = 1 then do coded fixedLiterals fixedBack ((← get).length + 1) out
      else if kind = 2 then do
        let (literals, back) ← described
        coded literals back ((← get).length + 1) out
      else failure
    if isLast then return out else blocks fuel out

/-- The check sum of some bytes: their sum from one, and the sum of all such sums before. -/
def checkSum (bs : Array UInt8) : Nat :=
  let (low, high) := bs.foldl (fun (low, high) b =>
    let low := (low + b.toNat) % 65521
    (low, (high + low) % 65521)) (1, 0)
  high * 0x10000 + low

/-- The bytes that are compressed at the beginning of these. -/
def expand? (bs : Bytes) : Option (Array UInt8) := do
  let first ← bs[0]?
  let second ← bs[1]?
  guard (first.toNat % 16 = 8 ∧ first < 0x80 ∧ second &&& 0x20 = 0)
  guard ((first.toNat * 256 + second.toNat) % 31 = 0)
  let reader : Reader (Array UInt8) := do
    let out ← blocks ((← get).length + 1) #[]
    align
    guard (bigEndian ((← numbers 8 4).map Nat.toUInt8) = checkSum out)
    return out
  reader.run' (bits (bs.drop 2))

end Galley.Bytes.Deflate

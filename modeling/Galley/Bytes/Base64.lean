import Galley.Bytes.Hex

/-!
# Base64

The standard alphabet, four symbols for three bytes. Decoding accepts what encoding writes and
nothing else: padding is required, and the bits that padding leaves over are zero.
-/

namespace Galley.Bytes.Base64

/-- The symbol of a number below 64. -/
def symbol (n : Nat) : Char :=
  if n < 26 then Char.ofNat ('A'.toNat + n)
  else if n < 52 then Char.ofNat ('a'.toNat + (n - 26))
  else if n < 62 then Char.ofNat ('0'.toNat + (n - 52))
  else if n = 62 then '+' else '/'

/-- The number of a symbol. -/
def value? (c : Char) : Option Nat :=
  if 'A' ≤ c ∧ c ≤ 'Z' then some (c.toNat - 'A'.toNat)
  else if 'a' ≤ c ∧ c ≤ 'z' then some (c.toNat - 'a'.toNat + 26)
  else if '0' ≤ c ∧ c ≤ '9' then some (c.toNat - '0'.toNat + 52)
  else if c = '+' then some 62
  else if c = '/' then some 63
  else none

/-- The symbols of some bytes. -/
def encode : Bytes → List Char
  | [] => []
  | [a] =>
    let n := a.toNat
    [symbol (n / 4), symbol (n % 4 * 16), '=', '=']
  | [a, b] =>
    let n := a.toNat * 256 + b.toNat
    [symbol (n / 1024), symbol (n / 16 % 64), symbol (n % 16 * 4), '=']
  | a :: b :: c :: bs =>
    let n := (a.toNat * 256 + b.toNat) * 256 + c.toNat
    symbol (n / 262144) :: symbol (n / 4096 % 64) :: symbol (n / 64 % 64) :: symbol (n % 64) ::
      encode bs

/-- The bytes of four symbols without padding. -/
def decodeFour? (a b c d : Char) : Option Bytes := do
  let a ← value? a
  let b ← value? b
  let c ← value? c
  let d ← value? d
  let n := ((a * 64 + b) * 64 + c) * 64 + d
  some [UInt8.ofNat (n / 65536), UInt8.ofNat (n / 256 % 256), UInt8.ofNat (n % 256)]

/-- The bytes of three symbols before one padding sign. -/
def decodeThree? (a b c : Char) : Option Bytes := do
  let a ← value? a
  let b ← value? b
  let c ← value? c
  let n := (a * 64 + b) * 64 + c
  if n % 4 = 0 then some [UInt8.ofNat (n / 1024), UInt8.ofNat (n / 4 % 256)] else none

/-- The byte of two symbols before two padding signs. -/
def decodeTwo? (a b : Char) : Option Bytes := do
  let a ← value? a
  let b ← value? b
  let n := a * 64 + b
  if n % 16 = 0 then some [UInt8.ofNat (n / 16)] else none

/-- The bytes that symbols denote. -/
def decode? : List Char → Option Bytes
  | [] => some []
  | [a, b, '=', '='] => decodeTwo? a b
  | [a, b, c, '='] => decodeThree? a b c
  | a :: b :: c :: d :: s => do
    let bs ← decodeFour? a b c d
    let rest ← decode? s
    some (bs ++ rest)
  | _ => none

end Galley.Bytes.Base64

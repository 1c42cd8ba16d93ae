import Galley.Decimal.Reading
import Galley.Json.Basic

/-!
# Reading JSON text

Reading stops at the first character that cannot go on, and an error tells what was left there, so
that a message can name the line. A number without point and exponent is an integer if it fits 64
bits. Any other number is its leading digits, as many as fit 64 bits, scaled by a power of ten in
double arithmetic. Lists and objects nest up to a limit.
-/

namespace Galley.Json

namespace Reader

/-- What is left of the text where reading stopped. -/
abbrev Stop := List Char

/-- A reader of the beginning of a text: what it read and what is left after that, or where it
stopped. -/
abbrev Scanner (α : Type) := List Char → Except Stop (α × List Char)

/-- How the reader treats nesting and repeated members. -/
structure Rules where
  /-- The number of lists and objects that may stand inside one another. -/
  levels : Nat
  /-- Are all members of an object kept, in the order of the text? If not, a later member takes
  the place of an earlier one with its name, and members are put in order. -/
  keepRepeats : Bool
  /-- Is a number beyond the doubles infinite, and not an error? -/
  keepHuge : Bool
  /-- Is a text null, and not an error, if one half of a surrogate pair stands alone in it? An
  object is null then if one of its names is such a text. -/
  keepHalves : Bool

/-- A text on its own: up to 127 levels. -/
def Rules.standard : Rules := ⟨127, false, false, false⟩

/-- The blanks between the parts of a JSON text. -/
def isSpace (c : Char) : Bool := c = ' ' || c = '\n' || c = '\t' || c = '\r'

/-- The text after its leading blanks. -/
def skipSpace (s : List Char) : List Char := s.dropWhile isSpace

/-! ## Numbers -/

/-- The greatest number of 64 bits. -/
def maxWord : Nat := 0xffffffffffffffff

/-- Append digits to a significand until one does not fit 64 bits. The result has the number of
digits taken. -/
def appendDigits (significand : Nat) : List Char → Nat × Nat
  | [] => (significand, 0)
  | c :: ds =>
    let next := significand * 10 + (c.toNat - '0'.toNat)
    if next ≤ maxWord then
      let (s, n) := appendDigits next ds
      (s, n + 1)
    else (significand, 0)

/-- A power of ten as a double. -/
def powerOfTen (e : Nat) : Float := Decimal.nearest false (Nat.pow 10 e) 1

/-- Divide by the greatest power of ten that is a double, a number of times. -/
def shrink (x : Float) : Nat → Float
  | 0 => x
  | n + 1 => shrink (x / powerOfTen 308) n

/-- The double `significand * 10 ^ exponent`, by one multiplication or by divisions. -/
def scale (significand : Nat) (exponent : Int) : Float :=
  let x := Decimal.ofNat significand
  if 308 < exponent then
    if significand = 0 then x else Decimal.withSign false Decimal.infinityBits
  else if 0 ≤ exponent then x * powerOfTen exponent.toNat
  else
    let e := (-exponent).toNat
    let steps := (e - 1) / 308
    shrink x (min steps 3) / powerOfTen (e - 308 * steps)

/-- The exponent of a number, after its `e`. -/
def exponent (s : List Char) : Except Stop (Int × List Char) :=
  let (negative, s) := Decimal.takeSign s
  match s with
  | [] => .error []
  | c :: rest =>
    if c.isDigit then
      let (ds, rest) := Decimal.takeDigits (c :: rest)
      let e := Decimal.digitsValue ds
      .ok (if negative then -e else e, rest)
    else .error rest

/-- A number with a point or an exponent, or one that does not fit 64 bits. -/
def float (rules : Rules) (negative : Bool) (significand : Nat) (e : Int) (s : List Char) :
    Except Stop (Json × List Char) := do
  let (e, s) ← match s with
    | 'e' :: s | 'E' :: s => do
      let (e', s) ← exponent s
      pure (e + e', s)
    | s => pure (e, s)
  let x := scale significand e
  if rules.keepHuge || Decimal.isFinite x then
    .ok (.float (if negative then -x else x), s)
  else .error s

/-- An integer without a point and an exponent. A negative zero and a number below the least
signed 64-bit integer are doubles. -/
def integer (negative : Bool) (n : Nat) : Json :=
  if !negative then .int n
  else if n = 0 || 0x8000000000000000 < n then .float (-(Decimal.ofNat n))
  else .int (-n)

/-- A number after its sign. -/
def number (rules : Rules) (negative : Bool) (s : List Char) : Except Stop (Json × List Char) :=
  let (ds, rest) := Decimal.takeDigits s
  if ds.isEmpty then .error (s.drop 1)
  else if ds.head? = some '0' && 1 < ds.length then .error (s.drop 2)
  else
    let (significand, taken) := appendDigits 0 ds
    let e : Int := (ds.length - taken : Nat)
    match rest with
    | '.' :: rest =>
      let (places, rest') := Decimal.takeDigits rest
      if places.isEmpty then .error (rest.drop 1)
      else
        let (significand, taken) := appendDigits significand places
        float rules negative significand (e - taken) rest'
    | 'e' :: _ | 'E' :: _ => float rules negative significand e rest
    | _ => if e = 0 then .ok (integer negative significand, rest)
      else float rules negative significand e rest

/-! ## Strings -/

/-- The value of a hexadecimal digit. -/
def hexValue? (c : Char) : Option Nat :=
  if c.isDigit then some (c.toNat - '0'.toNat)
  else if 'a' ≤ c ∧ c ≤ 'f' then some (c.toNat - 'a'.toNat + 10)
  else if 'A' ≤ c ∧ c ≤ 'F' then some (c.toNat - 'A'.toNat + 10)
  else none

/-- The text without its first `n` bytes in UTF-8; a character that is cut is gone. -/
def dropBytes : Nat → List Char → List Char
  | 0, s => s
  | _, [] => []
  | n + 1, c :: s => dropBytes (n + 1 - c.utf8Size) s

/-- Four hexadecimal digits. -/
def hexUnit (s : List Char) : Except Stop (Nat × List Char) :=
  match s with
  | a :: b :: c :: d :: rest =>
    match hexValue? a, hexValue? b, hexValue? c, hexValue? d with
    | some a, some b, some c, some d => .ok (((a * 16 + b) * 16 + c) * 16 + d, rest)
    | _, _, _, _ => .error (dropBytes 4 s)
  | _ => .error (dropBytes 4 s)

/-- The rest of a surrogate pair after its first half. -/
def secondHalf (high : Nat) (s : List Char) : Except Stop (Char × List Char) :=
  match s with
  | '\\' :: 'u' :: s => do
    let (low, s) ← hexUnit s
    if 0xdc00 ≤ low ∧ low ≤ 0xdfff then
      .ok (Char.ofNat ((high - 0xd800) * 0x400 + (low - 0xdc00) + 0x10000), s)
    else .error s
  | '\\' :: s => .error (s.drop 1)
  | s => .error (s.drop 1)

/-- A character written with `\u`, or a pair of them. -/
def unicodeEscape (s : List Char) : Except Stop (Char × List Char) := do
  let (n, s) ← hexUnit s
  if 0xdc00 ≤ n ∧ n ≤ 0xdfff then .error s
  else if 0xd800 ≤ n ∧ n ≤ 0xdbff then secondHalf n s
  else .ok (Char.ofNat n, s)

/-- A character after a backslash. -/
def escape (s : List Char) : Except Stop (Char × List Char) :=
  match s with
  | [] => .error []
  | '"' :: s => .ok ('"', s)
  | '\\' :: s => .ok ('\\', s)
  | '/' :: s => .ok ('/', s)
  | 'b' :: s => .ok (Char.ofNat 8, s)
  | 'f' :: s => .ok (Char.ofNat 12, s)
  | 'n' :: s => .ok ('\n', s)
  | 'r' :: s => .ok ('\r', s)
  | 't' :: s => .ok ('\t', s)
  | 'u' :: s => unicodeEscape s
  | _ :: s => .error s

/-- The characters of a string after its opening quote, put before those read so far, which are
held in reverse. -/
def stringBody : Nat → List Char → Scanner String
  | 0, _, s => .error s
  | fuel + 1, acc, s =>
    match s with
    | [] => .error []
    | '"' :: s => .ok (String.ofList acc.reverse, s)
    | '\\' :: s => do
      let (c, s) ← escape s
      stringBody fuel (c :: acc) s
    | c :: s => if c.toNat < 0x20 then .error s else stringBody fuel (c :: acc) s

/-- The characters of a string after its opening quote. -/
def string (s : List Char) : Except Stop (String × List Char) := stringBody (s.length + 1) [] s

/-- What comes after a string, where each `\u` may have any four digits. -/
def skipString : Nat → List Char → Except Stop (List Char)
  | 0, s => .error s
  | fuel + 1, s =>
    match s with
    | [] => .error []
    | '"' :: s => .ok s
    | '\\' :: 'u' :: s => do
      let (_, s) ← hexUnit s
      skipString fuel s
    | '\\' :: s => do
      let (_, s) ← escape s
      skipString fuel s
    | c :: s => if c.toNat < 0x20 then .error s else skipString fuel s

/-- The characters of a string after its opening quote, none where one half of a surrogate pair
stands alone and is kept. -/
def string? (rules : Rules) (s : List Char) : Except Stop (Option String × List Char) :=
  match string s with
  | .ok (v, s) => .ok (some v, s)
  | .error stop =>
    if rules.keepHalves then do
      let s ← skipString (s.length + 1) s
      .ok (none, s)
    else .error stop

/-! ## Values -/

/-- The rest of a word whose first letter was read. -/
def word (v : Json) : List Char → Scanner Json
  | [], s => .ok (v, s)
  | _, [] => .error []
  | e :: es, c :: s => if c = e then word v es s else .error s

/-- The items of a list after the first blank, given a reader of one item. -/
def items (item : Scanner Json) : Nat → List Json → Scanner Json
  | 0, _, s => .error s
  | fuel + 1, acc, s => do
    let (v, s) ← item s
    match skipSpace s with
    | ']' :: s => .ok (.list (v :: acc).reverse, s)
    | ',' :: s =>
      match skipSpace s with
      | ']' :: s => .error (']' :: s)
      | s => items item fuel (v :: acc) s
    | s => .error s

/-- A list after its opening bracket. -/
def list (item : Scanner Json) : Scanner Json := fun s =>
  match skipSpace s with
  | ']' :: s => .ok (.list [], s)
  | s => items item (s.length + 1) [] s

/-- The members read so far, latest first, as an object. -/
def assemble (rules : Rules) (ms : List (Option String × Json)) : Json :=
  match ms.reverse.mapM fun (k, v) => k.map (·, v) with
  | some ms => if rules.keepRepeats then .object ms else ofMembers ms
  | none => .null

/-- The members of an object from a name on, given a reader of one value. -/
def members (rules : Rules) (value : Scanner Json) :
    Nat → List (Option String × Json) → Scanner Json
  | 0, _, s => .error s
  | fuel + 1, acc, s =>
    match s with
    | '"' :: s => do
      let (k, s) ← string? rules s
      match skipSpace s with
      | ':' :: s =>
        let (v, s) ← value s
        match skipSpace s with
        | '\x7d' :: s => .ok (assemble rules ((k, v) :: acc), s)
        | ',' :: s => members rules value fuel ((k, v) :: acc) (skipSpace s)
        | s => .error s
      | s => .error s
    | s => .error s

/-- An object after its opening brace. -/
def object (rules : Rules) (value : Scanner Json) : Scanner Json := fun s =>
  match skipSpace s with
  | '\x7d' :: s => .ok (.object [], s)
  | s => members rules value (s.length + 1) [] s

/-- A value, with a number of levels that may still be opened. -/
def value (rules : Rules) (levels : Nat) (s : List Char) : Except Stop (Json × List Char) :=
  match skipSpace s with
  | [] => .error []
  | 'n' :: s => word .null ['u', 'l', 'l'] s
  | 't' :: s => word (.bool true) ['r', 'u', 'e'] s
  | 'f' :: s => word (.bool false) ['a', 'l', 's', 'e'] s
  | '-' :: s => number rules true s
  | '"' :: s => do
    let (v, s) ← string? rules s
    .ok (v.elim .null .text, s)
  | '[' :: s =>
    match levels with
    | 0 => .error s
    | levels + 1 => list (value rules levels) s
  | '\x7b' :: s =>
    match levels with
    | 0 => .error s
    | levels + 1 => object rules (value rules levels) s
  | c :: s => if c.isDigit then number rules false (c :: s) else .error s

/-- The value that a whole text denotes. -/
def readWith (rules : Rules) (s : List Char) : Except Stop Json := do
  let (v, s) ← value rules rules.levels s
  match skipSpace s with
  | [] => .ok v
  | s => .error s

end Reader

/-- A place in a text: the number of its line from one, and how many characters of that line come
before it. -/
structure Position where
  line : Nat
  column : Nat
  deriving DecidableEq

/-- The place after some characters. -/
def Position.after (cs : List Char) : Position :=
  ⟨1 + cs.count '\n', (cs.reverse.takeWhile (· ≠ '\n')).length⟩

/-- The value that a text denotes, or the place where reading stopped. -/
def read (s : String) : Except Position Json :=
  let cs := s.toList
  (Reader.readWith .standard cs).mapError fun rest =>
    Position.after (cs.take (cs.length - rest.length))

end Galley.Json

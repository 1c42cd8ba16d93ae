import Galley.Decimal.Reading
import Galley.Image.Raster.Flat
import Galley.Text.Blank

/-!
# PNM headers

Six of the formats have numbers between blanks after two characters, with comments. The seventh has
a line for each property.
-/

namespace Galley.Image.Raster.Pnm

/-- Is the byte a blank between the numbers of a header? -/
def isBlank (b : UInt8) : Bool := (9 ≤ b && b ≤ 13) || b == 32

/-- The characters of the next word, after those read so far, which are held in reverse, and what
comes after the blank behind it. A comment goes through the end of its line, and does not end a
word. -/
def wordFrom (isComment : Bool) (acc : List Char) : Bytes → Option (List Char × Bytes)
  | [] => if acc.isEmpty then none else some (acc.reverse, [])
  | b :: bs =>
    if isComment then wordFrom (b ≠ 10 && b ≠ 13) acc bs
    else if b = 35 then wordFrom true acc bs
    else if isBlank b then
      if acc.isEmpty then wordFrom false acc bs else some (acc.reverse, bs)
    else if 128 ≤ b then none
    else wordFrom false (Char.ofNat b.toNat :: acc) bs

/-- The greatest number of 32 bits. -/
def maxNumber : Nat := 0xffffffff

/-- The next number. -/
def number : Scan Nat := do
  let word ← (wordFrom false [] : Scan (List Char))
  Decimal.readNat? maxNumber word

/-- The dimensions in a header of numbers. All but bitmaps give a greatest sample. -/
def plain (kind : Nat) : Scan Pixels := do
  let width ← number
  let height ← number
  let top ← if kind = 1 ∨ kind = 4 then pure 1 else number
  let samples := if kind = 3 ∨ kind = 6 then 3 else 1
  guard (top ≤ 65535)
  guard (isCountable (width, height) (if top ≤ 255 then samples else 2 * samples))
  return (width, height)

/-! ## Headers of lines -/

/-- The properties in a header of lines. -/
structure Properties where
  width : Option Nat
  height : Option Nat
  depth : Option Nat
  top : Option Nat
  /-- The name of the kind of tuples. -/
  tuples : Option (List Char)

/-- A number that was not given before. -/
def once (old : Option Nat) (value : List Char) : Option (Option Nat) :=
  if old.isSome then none else (Decimal.readNat? maxNumber value).map some

/-- The properties after a line with a name and a value. -/
def Properties.set (p : Properties) (name : String) (value : List Char) : Option Properties :=
  match name with
  | "WIDTH" => (once p.width value).map fun x => { p with width := x }
  | "HEIGHT" => (once p.height value).map fun x => { p with height := x }
  | "DEPTH" => (once p.depth value).map fun x => { p with depth := x }
  | "MAXVAL" => (once p.top value).map fun x => { p with top := x }
  | "TUPLTYPE" =>
    some { p with tuples := some (p.tuples.elim value fun old => old ++ ' ' :: value) }
  | _ => none

/-- The properties in the lines up to the end of the header. -/
def Properties.read (p : Properties) : List Bytes → Option Properties
  | [] => none
  | line :: lines =>
    if line.head? = some 35 then p.read lines
    else if line.any (128 ≤ ·) then none
    else
      let cs := line.map fun b => Char.ofNat b.toNat
      let size := (cs.takeWhile fun c => !Text.isBlank c).length
      let cs := Text.trimStart cs
      let name := String.ofList (cs.take size)
      if name = "ENDHDR" then some p
      else do (← p.set name (Text.trim (cs.drop size))).read lines

/-- The number of bytes of a tuple, if tuples of the kind are read. -/
def tupleSize? (depth top : Nat) (tuples : Option (List Char)) : Option Nat :=
  let size := if top ≤ 255 then depth else 2 * depth
  if top = 0 ∨ 65535 < top then none
  else match tuples.map String.ofList with
    | none => if depth = 1 ∨ depth = 3 then some depth else none
    | some "BLACKANDWHITE" => if depth = 1 ∧ top = 1 then some 1 else none
    | some "GRAYSCALE" => if depth = 1 then some size else none
    | some "RGB" => if depth = 3 then some size else none
    | some _ => none

/-- The dimensions in a header of lines. -/
def lined : Scan Pixels := do
  guard ((← Scan.byte) = 10)
  let rest ← get
  let lines := rest.splitOn 10
  let p ← Properties.read ⟨none, none, none, none, none⟩
    (if lines.getLast? = some [] then lines.dropLast else lines)
  let width ← p.width
  let height ← p.height
  let size ← tupleSize? (← p.depth) (← p.top) p.tuples
  guard (isCountable (width, height) size)
  return (width, height)

/-- The dimensions of a PNM file. -/
def pixels : Scan Pixels := do
  Scan.word "P"
  let kind := (← Scan.byte) - 48
  if kind = 7 then lined else plain kind

end Galley.Image.Raster.Pnm

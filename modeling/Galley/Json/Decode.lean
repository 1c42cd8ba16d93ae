import Galley.Json.Writer
import Galley.Text.Quoted

/-!
# Decoding JSON values

A value that does not have the form that is asked for is rejected with what was found and what was
expected. The decoders here are for the basic forms; each type has its own decoder beside it.
-/

namespace Galley

/-- Why a value was rejected. -/
inductive Json.Mismatch where
  /-- A value of the wrong kind. -/
  | kind (found : Json) (expected : String)
  /-- A value of the right kind that is out of range. -/
  | range (found : Json) (expected : String)
  /-- A name that is none of two known ones. -/
  | variant (name first second : String)
  /-- A value that has none of the forms of a type. -/
  | form (type : String)
  /-- A field that is given twice. -/
  | repeated (field : String)
  /-- A field that is not there. -/
  | missing (field : String)
  /-- A list of the wrong length. -/
  | length (found : Nat) (expected : String)
  /-- A style property with a list or an object for its value. -/
  | property (name : String) (found : Json)

namespace Json

/-- The value within a message: its kind, and the value itself if it is a simple one. -/
def describe : Json → String
  | .null => "null"
  | .bool b => "boolean `" ++ (if b then "true" else "false") ++ "`"
  | .int n => "integer `" ++ String.ofList (Decimal.integer n) ++ "`"
  | .float x => "floating point `" ++ String.ofList (floatText x) ++ "`"
  | .text s => "string " ++ Text.quoted s
  | .list _ => "sequence"
  | .object _ => "map"

/-- The message of a rejection. -/
def Mismatch.message : Mismatch → String
  | .kind found expected => "invalid type: " ++ found.describe ++ ", expected " ++ expected
  | .range found expected => "invalid value: " ++ found.describe ++ ", expected " ++ expected
  | .variant name first second =>
    "unknown variant `" ++ name ++ "`, expected `" ++ first ++ "` or `" ++ second ++ "`"
  | .form type => "data did not match any variant of untagged enum " ++ type
  | .repeated field => "duplicate field `" ++ field ++ "`"
  | .missing field => "missing field `" ++ field ++ "`"
  | .length found expected =>
    "invalid length " ++ Decimal.natural found ++ ", expected " ++ expected
  | .property name found =>
    "style." ++ name ++ ": expected number or string, got " ++ found.toText

/-- What a decoder answers with. -/
abbrev Decoded (α : Type) := Except Mismatch α

/-- A text. -/
def decodeText : Json → Decoded String
  | .text s => .ok s
  | v => .error (.kind v "a string")

/-- A whole number that is not negative and fits 64 bits. -/
def decodeSize : Json → Decoded Nat
  | .int n => if 0 ≤ n then .ok n.toNat else .error (.range (.int n) "usize")
  | v => .error (.kind v "usize")

/-- A number. An infinite one stands for a number that is too large to be read. -/
def decodeNumber (v : Json) : Decoded Float :=
  match v.number? with
  | some x => if Decimal.isFinite x then .ok x else .error (.kind v "f64")
  | none => .error (.kind v "f64")

/-- A byte. -/
def decodeByte : Json → Decoded UInt8
  | .int n => if 0 ≤ n ∧ n < 256 then .ok (UInt8.ofNat n.toNat) else .error (.range (.int n) "u8")
  | v => .error (.kind v "u8")

/-- A value that may be null. -/
def decodeOption {α : Type} (decode : Json → Decoded α) : Json → Decoded (Option α)
  | .null => .ok none
  | v => (decode v).map some

/-- The value of the only member with a name, if there is one. -/
def decodeMember {α : Type} (name : String) (decode : Json → Decoded α) (ms : Fields Json) :
    Decoded (Option α) :=
  match ms.filter fun m => m.1 = name with
  | [] => .ok none
  | [(_, v)] => (decode v).map some
  | _ => .error (.repeated name)

/-- The value of an item, if there is one. -/
def decodeItem {α : Type} (index : Nat) (decode : Json → Decoded α) (items : List Json) :
    Decoded (Option α) :=
  match items[index]? with
  | none => .ok none
  | some v => (decode v).map some

/-- Nothing, unless there are more items than are asked for. -/
def decodeEnd (count : Nat) (items : List Json) : Decoded Unit :=
  if items.length ≤ count then .ok ()
  else .error (.length items.length "fewer elements in array")

/-- One of two names, alone or as the only member of an object with null for its value. -/
def decodeVariant {α : Type} (first second : String × α) (v : Json) : Decoded α :=
  let named (name : String) : Decoded α :=
    if name = first.1 then .ok first.2
    else if name = second.1 then .ok second.2
    else .error (.variant name first.1 second.1)
  match v with
  | .text name => named name
  | .object [(name, value)] => do
    let a ← named name
    match value with
    | .null => .ok a
    | value => .error (.kind value "unit")
  | .object ms => .error (.range (.object ms) "map with a single key")
  | v => .error (.kind v "string or map")

end Json

end Galley

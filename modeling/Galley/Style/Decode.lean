import Galley.Json.Decode
import Galley.Style.Value

/-!
# Styles as data

A style is an object whose members are its properties. On reading, a member that is null gives its
property no value, and a truth value becomes its name.
-/

namespace Galley.Style

/-- A value as data. -/
def Value.toJson : Value → Json
  | number x => .float x
  | text s => .text s

/-- A number or a text. -/
def Value.decode : Json → Json.Decoded Value
  | .text s => .ok (text s)
  | v =>
    match v.number? with
    | some x => .ok (number x)
    | none => .error (.form "StyleValue")

/-- A style as data. -/
def toJson (s : Style) : Json := .ofDict Value.toJson s

/-- The value that a member gives to its property, if it gives one. -/
def decodeProperty (name : String) : Json → Json.Decoded (Option Value)
  | .null => .ok none
  | .bool b => .ok (some (.text (if b then "true" else "false")))
  | .text s => .ok (some (.text s))
  | .int n => .ok (some (.number (Decimal.ofInt n)))
  | .float x => .ok (some (.number x))
  | v => .error (.property name v)

/-- The declarations of a list of members. -/
def decodeProperties : Fields Json → Json.Decoded (List Declaration)
  | [] => .ok []
  | (name, v) :: ms => do
    let value ← decodeProperty name v
    let rest ← decodeProperties ms
    match value with
    | some value => .ok ((name, value) :: rest)
    | none => .ok rest

/-- The style that an object denotes. -/
def decode : Json → Json.Decoded Style
  | .object ms => (decodeProperties ms).map Dict.ofList
  | v => .error (.kind v "a map")

end Galley.Style

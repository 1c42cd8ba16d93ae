import Galley.Decimal.Nearest
import Galley.Dict

/-!
# JSON values

Numbers written without a point or an exponent are integers, all others are doubles. The members
of an object are kept in ascending order of their names (`Json.Canonical`); the reader and the
constructors below take care of that.
-/

namespace Galley

/-- A JSON value. -/
inductive Json where
  | null
  | bool (b : Bool)
  | int (n : Int)
  | float (x : Float)
  | text (s : String)
  | list (items : List Json)
  | object (members : List (String × Json))

namespace Json

instance : Inhabited Json := ⟨null⟩

/-- The object with the given members, the last one of each name. -/
def ofMembers (ms : Fields Json) : Json := .object (Dict.ofList ms).entries

/-- The object with the entries of a dictionary. -/
def ofDict {α : Type} (f : α → Json) (d : Dict α) : Json :=
  .object (d.entries.map fun (k, v) => (k, f v))

/-- A natural number. -/
def nat (n : Nat) : Json := .int n

/-- A value or null. -/
def ofOption {α : Type} (f : α → Json) : Option α → Json
  | some a => f a
  | none => .null

/-- The members that are there. -/
def presentMembers (ms : List (String × Option Json)) : Json :=
  ofMembers (ms.filterMap fun (k, v) => v.map (k, ·))

/-- The double that a number denotes. -/
def number? : Json → Option Float
  | .int n => some (Decimal.ofInt n)
  | .float x => some x
  | _ => none

/-- The characters of a text. -/
def text? : Json → Option String
  | .text s => some s
  | _ => none

/-- The member of an object. -/
def member? (k : String) : Json → Option Json
  | .object ms => Fields.get? k ms
  | _ => none

mutual

/-- Are the members of every object in it in ascending order? -/
def Canonical : Json → Prop
  | .object ms => Fields.Ascending ms ∧ CanonicalMembers ms
  | .list items => CanonicalItems items
  | _ => True

/-- Is every item canonical? -/
def CanonicalItems : List Json → Prop
  | [] => True
  | v :: vs => Canonical v ∧ CanonicalItems vs

/-- Is the value of every member canonical? -/
def CanonicalMembers : List (String × Json) → Prop
  | [] => True
  | (_, v) :: ms => Canonical v ∧ CanonicalMembers ms

end

end Json

end Galley

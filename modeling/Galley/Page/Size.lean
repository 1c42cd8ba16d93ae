import Galley.Fault
import Galley.Page.Dimensions

/-!
# Page sizes

A page size is the name of a preset or a width and a height, which have to be positive.
-/

namespace Galley.Page

/-- A page size as it is given. -/
inductive Size where
  | named (name : String)
  | custom (dims : Dimensions)
  deriving DecidableEq

/-- The dimensions of a page size. -/
def Size.resolve : Size → Except Fault Dimensions
  | .custom d =>
    if 0.0 < d.width ∧ 0.0 < d.height then .ok d else .error (.badPageSize d.width d.height)
  | .named name =>
    match Dimensions.ofName? name with
    | some d => .ok d
    | none => .error (.unknownPageSize name)

end Galley.Page

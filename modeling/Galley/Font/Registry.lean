import Galley.Bytes.Hex
import Galley.Font.Face

/-!
# Registered fonts

Fonts that are registered for a family, in the order of registration. A face gets the first one
with its weight and slant, and otherwise the first one of its family.
-/

namespace Galley.Font

/-- Where a registered font comes from. -/
inductive Origin where
  | data (bytes : Bytes)
  | url (url : String)
  deriving DecidableEq

/-- A font that was registered. -/
structure Descriptor where
  weight : Nat
  slant : Slant
  origin : Origin
  deriving DecidableEq

/-- The registrations so far, first one first, each with the key of its family. -/
structure Registry where
  registrations : List (String × Descriptor)

namespace Registry

/-- No registration. -/
def empty : Registry := ⟨[]⟩

/-- Register a font for a family in any spelling. -/
def register (r : Registry) (family : String) (d : Descriptor) : Registry :=
  ⟨r.registrations ++ [(familyKey family, d)]⟩

/-- The fonts registered for a family key, first one first. -/
def ofFamily (r : Registry) (key : String) : List Descriptor :=
  (r.registrations.filter fun e => e.1 = key).map (·.2)

/-- The font for a face. -/
def lookup? (r : Registry) (face : Face) : Option Descriptor :=
  let ds := r.ofFamily face.family
  (ds.find? fun d => d.weight = face.weight && d.slant = face.slant).or ds.head?

/-- Is there a font for a family in any spelling? -/
def contains (r : Registry) (family : String) : Bool :=
  !(r.ofFamily (familyKey family)).isEmpty

end Registry

end Galley.Font

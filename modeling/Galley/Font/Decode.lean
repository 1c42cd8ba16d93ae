import Galley.Font.Usage
import Galley.Json.Decode

/-!
# Fonts as data
-/

namespace Galley.Font

/-- One of the two slants. -/
def Slant.decode : Json → Json.Decoded Slant :=
  Json.decodeVariant ("normal", .normal) ("italic", .italic)

/-- The usage of a family as data. -/
def Usage.toJson (u : Usage) : Json :=
  .ofMembers [
    ("family", .text u.family),
    ("name", .text u.name),
    ("weights", .list (u.weights.toList.map .nat)),
    ("styles", .list (u.slants.toList.map fun s => .text s.name))]

end Galley.Font

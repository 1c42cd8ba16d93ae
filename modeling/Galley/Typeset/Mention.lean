import Galley.Document.Basic
import Galley.Typeset.Typography

/-!
# Mentions

While a tree is typeset, its elements mention faces and images. What a document needs is what is
mentioned, in the order of first mention: a family once, with all its weights and slants, and a
source once.
-/

namespace Galley.Typeset

/-- A face or an image that an element asks for. -/
inductive Mention where
  | face (family : String) (weight : Nat) (slant : Font.Slant)
  | image (source : Image.Source)
  deriving DecidableEq

/-- What an element mentions whose style led to a typography. -/
def Typography.mentions (t : Typography) (s : Style) : List Mention :=
  match t.family with
  | some family => if speaks s then [.face family t.weight t.slant] else []
  | none => []

/-- The usages with one more face of a family with a key and a name. -/
def recordFace (key name : String) (weight : Nat) (slant : Font.Slant) :
    List Font.Usage → List Font.Usage
  | [] => [⟨key, name, Font.Weights.empty.insert weight, Font.Slants.empty.insert slant⟩]
  | u :: us =>
    if u.family = key then u.insert weight slant :: us
    else u :: recordFace key name weight slant us

/-- The usages with one more image. -/
def recordImage (u : Document.ImageUsage) (us : List Document.ImageUsage) :
    List Document.ImageUsage :=
  if us.any fun v => v.id = u.id then us else us ++ [u]

/-- The usages of families with a mention put into them. -/
def addFont (us : List Font.Usage) : Mention → List Font.Usage
  | .face family weight slant => recordFace (Font.familyKey family) family weight slant us
  | .image _ => us

/-- The usages of images with a mention put into them. -/
def addImage (us : List Document.ImageUsage) : Mention → List Document.ImageUsage
  | .face .. => us
  | .image source => recordImage (.of source) us

/-- The usages of the families that are mentioned. -/
def fontUsages (ms : List Mention) : List Font.Usage := ms.foldl addFont []

/-- The usages of the images that are mentioned. -/
def imageUsages (ms : List Mention) : List Document.ImageUsage := ms.foldl addImage []

end Galley.Typeset

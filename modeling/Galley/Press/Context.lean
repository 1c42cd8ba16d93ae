import Galley.Asset.Fonts
import Galley.Asset.Images

/-!
# What an engine is given

A document with the fonts and the images that were fetched for it. Images that did not resolve are
missing; at least one font is always there.
-/

namespace Galley.Press

open Asset (LoadedFont LoadedImage Plan)

/-- A document with its fonts and images. -/
structure Context where
  document : Document
  fonts : List LoadedFont
  /-- Images by their ids. -/
  images : Dict LoadedImage

namespace Context

/-- The image with an id. -/
def image? (c : Context) (id : String) : Option LoadedImage := c.images.get? id

/-- The font of a family in any spelling, with the weight and the slant if there is one. -/
def font? (c : Context) (family : String) (weight : Nat) (slant : Font.Slant) :
    Option LoadedFont :=
  let face := Font.Face.of family weight slant
  (c.fonts.find? fun f => f.face = face).or (c.fonts.find? fun f => f.face.family = face.family)

/-- The ids of images that the document needs and that are missing. -/
def missingImages (c : Context) : List String :=
  (c.document.images.map (·.id)).filter fun id => !c.images.contains id

end Context

/-- Fetch the fonts of a document, and then its images. -/
def gather (s : Settings.Fetching) (d : Document) : Plan (Except Fault Context) := do
  let fonts ← Asset.loadFonts s d.fonts
  let images ← Asset.loadImages s d.images
  pure (fonts.map fun fonts => ⟨d, fonts, images⟩)

end Galley.Press

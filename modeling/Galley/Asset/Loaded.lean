import Galley.Bytes.Hex
import Galley.Font.Face
import Galley.Image.Format
import Galley.Image.Raster

/-!
# Responses and loaded assets

What comes back from a network, and the fonts and images that are made of it.
-/

namespace Galley.Asset

/-- How a request treats copies that are kept on the way. -/
inductive Mode where
  | default
  /-- A stale copy will do. -/
  | preferCache
  deriving DecidableEq

/-- The name of a mode. -/
def Mode.name : Mode → String
  | default => "default"
  | preferCache => "prefer-cache"

/-- What a server sends. -/
structure Response where
  status : Nat
  body : Bytes
  deriving DecidableEq

/-- Does the status report success? -/
def Response.isSuccess (r : Response) : Bool := 200 ≤ r.status && r.status < 300

/-- A response, or the message of a network that has none. -/
abbrev Reply := Except String Response

/-- A font face with its file. -/
structure LoadedFont where
  face : Font.Face
  data : Bytes
  /-- The address of the file, if it has one. -/
  url : Option String
  deriving DecidableEq

/-- An image with its file. -/
structure LoadedImage where
  id : String
  format : Image.Format
  data : Bytes
  /-- Width and height in pixels, if the file tells. -/
  pixels : Option Image.Raster.Pixels
  deriving DecidableEq

/-- The image in a file. -/
def LoadedImage.of (id : String) (format : Image.Format) (data : Bytes) : LoadedImage :=
  ⟨id, format, data, if format = .svg then none else Image.Raster.dimensions? data⟩

end Galley.Asset

import Galley.Page.Dimensions

/-!
# Settings

Limits and defaults for typesetting documents and for fetching their fonts and images.
-/

namespace Galley.Settings

/-- Settings for typesetting. -/
structure Typesetting where
  /-- How many components may be expanded in a row for one node. -/
  componentLimit : Nat
  /-- How deep elements may nest below a page. -/
  depthLimit : Nat
  /-- The size of a page that declares none. -/
  pageSize : Page.Dimensions
  deriving DecidableEq

/-- Settings for fetching fonts and images. -/
structure Fetching where
  /-- The name under which requests are made. -/
  userAgent : String
  /-- The address of the stylesheets of the public font catalog. -/
  catalogUrl : String
  /-- The family of a document that names none. -/
  family : String
  /-- How many producers may hand out one another for one image. -/
  producerLimit : Nat
  deriving DecidableEq

namespace Typesetting

/-- The settings when nothing is set. -/
def default : Typesetting := ⟨64, 128, .a4⟩

instance : Inhabited Typesetting := ⟨default⟩

end Typesetting

namespace Fetching

/-- The settings when nothing is set. -/
def default : Fetching := ⟨"folio/0.1", "https://fonts.googleapis.com/css2", "Inter", 8⟩

instance : Inhabited Fetching := ⟨default⟩

end Fetching

end Galley.Settings

namespace Galley

/-- All settings. -/
structure Settings where
  typesetting : Settings.Typesetting
  fetching : Settings.Fetching
  deriving DecidableEq

/-- The settings when nothing is set. -/
def Settings.default : Settings := ⟨.default, .default⟩

end Galley

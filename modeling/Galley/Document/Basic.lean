import Galley.Document.Kind
import Galley.Font.Usage
import Galley.Image.Source
import Galley.Page.Edges
import Galley.Page.Size
import Galley.Style.Value

/-!
# Documents

A document is what engines are given: sheets with geometry and blocks, and the fonts and images
that the blocks need. What a block has beside its style and its children depends on its kind
(`Document.Content`).
-/

namespace Galley

namespace Document

/-- What a block has according to its kind. -/
inductive Content where
  | document
  | page (size : Page.Dimensions) (margin : Page.Edges)
  | container
  /-- A text that consists of characters alone has them here, and no children. -/
  | text (characters : Option String)
  /-- An image has the identity of its source. -/
  | image (id : String)
  | link (href : Option String)
  deriving DecidableEq

/-- The kind of the block with a content. -/
def Content.kind : Content → Kind
  | document => .document
  | page _ _ => .page
  | container => .container
  | text _ => .text
  | image _ => .image
  | link _ => .link

/-- The characters that a content has itself. -/
def Content.characters : Content → String
  | text (some s) => s
  | _ => ""

/-- A part of a sheet, with its own style. -/
structure Block where
  content : Content
  style : Style
  children : List Block

/-- A text without style. -/
def Block.plain (s : String) : Block := ⟨.text (some s), .empty, []⟩

/-- A page with its geometry and its blocks. -/
structure Sheet where
  size : Page.Dimensions
  margin : Page.Edges
  style : Style
  blocks : List Block

/-- A page block as a sheet. A block of another kind has the given size and no margin. -/
def Sheet.ofBlock (size : Page.Dimensions) (b : Block) : Sheet :=
  match b.content with
  | .page size margin => ⟨size, margin, b.style, b.children⟩
  | _ => ⟨size, .zero, b.style, b.children⟩

/-- What a document says about itself. -/
structure Metadata where
  title : Option String
  author : Option String
  subject : Option String
  keywords : Option String
  creator : String
  producer : Option String
  deriving DecidableEq

/-- An image that a document needs, with its identity. -/
structure ImageUsage where
  id : String
  source : Image.Source
  deriving DecidableEq

/-- The usage of a source. -/
def ImageUsage.of (s : Image.Source) : ImageUsage := ⟨s.identity, s⟩

end Document

/-- A document that is ready for its fonts and images to be fetched. -/
structure Document where
  sheets : List Document.Sheet
  fonts : List Font.Usage
  images : List Document.ImageUsage
  /-- A tree whose root is no document says nothing about itself. -/
  metadata : Option Document.Metadata

end Galley

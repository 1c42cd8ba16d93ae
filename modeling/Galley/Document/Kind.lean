import Galley.Text.Cut

/-!
# Kinds of elements

The kind of an element follows from its tag, in any letter case. A tag that is not known is that of
a container.
-/

namespace Galley.Document

/-- What an element is. -/
inductive Kind where
  | document
  | page
  | container
  | text
  | image
  | link
  deriving DecidableEq

namespace Kind

/-- The tags of the kinds other than containers. -/
def tags : List (String × Kind) := [
  ("document", document), ("page", page), ("text", text), ("span", text), ("image", image),
  ("img", image), ("link", link), ("a", link)]

/-- The kind of a tag. -/
def ofTag (tag : String) : Kind :=
  let name := Text.lowerAscii tag.toList
  match tags.find? fun t => t.1.toList == name with
  | some (_, kind) => kind
  | none => container

/-- The name of a kind. -/
def name : Kind → String
  | document => "document"
  | page => "page"
  | container => "container"
  | text => "text"
  | image => "image"
  | link => "link"

end Kind

end Galley.Document

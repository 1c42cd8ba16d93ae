import Galley.Document.Basic
import Galley.Font.Decode
import Galley.Page.Decode
import Galley.Style.Decode

/-!
# Documents as data

A document is written out for inspection. Fields that are not there are left out. The date of
creation is put in by whoever writes a document that says something about itself.
-/

namespace Galley.Document

/-- The version of the written form. -/
def version : String := "1.0"

/-- The members that a content gives to its block. -/
def Content.toJson : Content → Json
  | document | container => .ofMembers []
  | page size margin => .ofMembers [("size", size.toJson), ("margin", margin.toJson)]
  | text characters => .presentMembers [("content", characters.map .text)]
  | image id => .ofMembers [("image_id", .text id)]
  | link href => .presentMembers [("href", href.map .text)]

mutual

/-- A block as data. -/
def Block.toJson : Block → Json
  | ⟨content, style, children⟩ =>
    .ofMembers [
      ("kind", .text content.kind.name),
      ("style", Style.toJson style),
      ("children", .list (blocksToJson children)),
      ("props", content.toJson)]

/-- Blocks as data. -/
def blocksToJson : List Block → List Json
  | [] => []
  | b :: bs => b.toJson :: blocksToJson bs

end

/-- A sheet as data. -/
def Sheet.toJson (s : Sheet) : Json :=
  .ofMembers [
    ("size", s.size.toJson),
    ("margin", s.margin.toJson),
    ("style", Style.toJson s.style),
    ("children", .list (blocksToJson s.blocks))]

/-- Metadata as data, with the date of creation. -/
def Metadata.toJson (created : Json) (m : Metadata) : Json :=
  .presentMembers [
    ("title", m.title.map .text),
    ("author", m.author.map .text),
    ("subject", m.subject.map .text),
    ("keywords", m.keywords.map .text),
    ("creator", some (.text m.creator)),
    ("producer", m.producer.map .text),
    ("creation_date", some created)]

/-- The usage of an image as data. -/
def ImageUsage.toJson (u : ImageUsage) : Json :=
  .ofMembers [("id", .text u.id), ("source", u.source.toJson)]

end Galley.Document

namespace Galley

/-- A document as data, with the date of its creation. -/
def Document.toJson (created : Json) (d : Document) : Json :=
  .presentMembers [
    ("version", some (.text Document.version)),
    ("pages", some (.list (d.sheets.map Document.Sheet.toJson))),
    ("fonts", some (.list (d.fonts.map Font.Usage.toJson))),
    ("images", some (.list (d.images.map Document.ImageUsage.toJson))),
    ("metadata", d.metadata.map (Document.Metadata.toJson created))]

end Galley

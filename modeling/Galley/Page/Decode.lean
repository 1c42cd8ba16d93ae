import Galley.Json.Decode
import Galley.Page.Edges
import Galley.Page.Size

/-!
# Page geometry as data

Sizes and margins are read from several forms and written in one.
-/

namespace Galley.Page

/-- Dimensions as data. -/
def Dimensions.toJson (d : Dimensions) : Json :=
  .ofMembers [("width", .float d.width), ("height", .float d.height)]

/-- Edges as data. -/
def Edges.toJson (e : Edges) : Json :=
  .ofMembers [("top", .float e.top), ("right", .float e.right), ("bottom", .float e.bottom),
    ("left", .float e.left)]

/-- The dimensions in an object with both sides, or in a list of the two sides. -/
def Dimensions.decode : Json → Json.Decoded Dimensions
  | .object ms => do
    let height ← Json.decodeMember "height" Json.decodeNumber ms
    let width ← Json.decodeMember "width" Json.decodeNumber ms
    match width, height with
    | some width, some height => .ok ⟨width, height⟩
    | none, _ => .error (.missing "width")
    | _, none => .error (.missing "height")
  | .list items => do
    let width ← Json.decodeItem 0 Json.decodeNumber items
    let height ← Json.decodeItem 1 Json.decodeNumber items
    match width, height with
    | some width, some height => do
      Json.decodeEnd 2 items
      .ok ⟨width, height⟩
    | _, _ => .error (.length items.length "struct PageDimensions with 2 elements")
  | v => .error (.kind v "struct PageDimensions")

/-- A name, or dimensions. -/
def Size.decode : Json → Json.Decoded Size
  | .text name => .ok (.named name)
  | v =>
    match Dimensions.decode v with
    | .ok d => .ok (.custom d)
    | .error _ => .error (.form "PageSize")

/-- The points of an edge that may be absent or null. -/
def decodeEdge (name : String) (ms : Fields Json) : Json.Decoded (Option Float) := do
  let edge ← Json.decodeMember name (Json.decodeOption Json.decodeNumber) ms
  .ok edge.join

/-- The margin in an object with any of the four edges. -/
def Margin.decodeEdges (ms : Fields Json) : Json.Decoded Margin := do
  let top ← decodeEdge "top" ms
  let right ← decodeEdge "right" ms
  let bottom ← decodeEdge "bottom" ms
  let left ← decodeEdge "left" ms
  .ok (.edges top right bottom left)

/-- A number, a shorthand text, or an object with edges. -/
def Margin.decode : Json → Json.Decoded Margin
  | .text s => .ok (.shorthand s)
  | .object ms =>
    match Margin.decodeEdges ms with
    | .ok m => .ok m
    | .error _ => .error (.form "Margin")
  | v =>
    match v.number? with
    | some x => .ok (.uniform x)
    | none => .error (.form "Margin")

/-- One of the two orientations. -/
def Orientation.decode : Json → Json.Decoded Orientation :=
  Json.decodeVariant ("portrait", .portrait) ("landscape", .landscape)

end Galley.Page

import Galley.Document.Measure
import Galley.Settings.Basic
import Galley.Typeset.Expansion
import Galley.Typeset.Mention

/-!
# Typesetting a tree

Elements become blocks, and each block comes with what it mentions, itself first and then its
children in order. The first fault in that order is the answer; within one element the depth is
looked at first, then the size and the margin of a page, the source of an image, and the children.

The root decides what the sheets are: a document has its page children, a page is the only sheet,
and anything else is put on a sheet without margin.
-/

namespace Galley.Typeset

open Document (Block Content Kind Metadata Sheet)
open Markup (Element Node Piece Rendering)

variable {δ : Type}

/-- The style of an element: its classes, and its explicit style over them. -/
def elementStyle (e : Element δ) : Style :=
  ((e.props.classes.map Style.ofClasses).getD .empty).merge e.props.style

/-- The kind of an element. -/
def kind (e : Element δ) : Kind := .ofTag e.tag

/-- The size of a page, turned as its orientation says. -/
def pageSize (default : Page.Dimensions) (e : Element δ) : Except Fault Page.Dimensions := do
  let size ←
    match e.props.size with
    | some size => size.resolve
    | none => .ok default
  match e.props.orientation with
  | some orientation => .ok (orientation.apply size)
  | none => .ok size

/-- The margin of a page. -/
def pageMargin (e : Element δ) : Except Fault Page.Edges :=
  match e.props.margin with
  | some margin => margin.resolve
  | none => .ok .zero

/-- What the block of an element has according to its kind, and the image that it mentions. -/
def content (default : Page.Dimensions) (e : Element δ) : Except Fault (Content × List Mention) :=
  match kind e with
  | .document => .ok (.document, [])
  | .page => do
    let size ← pageSize default e
    let margin ← pageMargin e
    .ok (.page size margin, [])
  | .container => .ok (.container, [])
  | .text => .ok (.text none, [])
  | .image =>
    match e.props.src with
    | some source => .ok (.image source.identity, [.image source])
    | none => .error .noImageSource
  | .link => .ok (.link e.props.href, [])

/-- The characters of pieces that are all texts. -/
def characters? : List (Piece δ) → Option String
  | [] => some ""
  | .text s :: ps => (characters? ps).map (s ++ ·)
  | .node _ :: _ => none

/-- The blocks of pieces, given the way to set an element. -/
def setPieces (expand : Node δ → Except Fault (Element δ))
    (set : Element δ → Except Fault (Block × List Mention)) :
    List (Piece δ) → Except Fault (List Block × List Mention)
  | [] => .ok ([], [])
  | .text s :: ps => do
    let (blocks, mentions) ← setPieces expand set ps
    .ok (.plain s :: blocks, mentions)
  | .node n :: ps => do
    let e ← expand n
    let (block, first) ← set e
    let (blocks, mentions) ← setPieces expand set ps
    .ok (block :: blocks, first ++ mentions)

/-- The block of an element, with a number of levels that may still be entered. -/
def setElement (render : Rendering δ) (s : Settings.Typesetting) :
    Nat → Typography → Element δ → Except Fault (Block × List Mention)
  | 0, _, e => .error (.tooDeep e.tag s.depthLimit)
  | levels + 1, inherited, e => do
    let style := elementStyle e
    let typography := inherited.apply style
    let (content, image) ← content s.pageSize e
    let mentions := typography.mentions style ++ image
    let pieces := Markup.pieces e.children
    match content, characters? pieces with
    | .text _, some characters => .ok (⟨.text (some characters), style, []⟩, mentions)
    | content, _ => do
      let (blocks, rest) ←
        setPieces (expand render s.componentLimit) (setElement render s levels typography) pieces
      .ok (⟨content, style, blocks⟩, mentions ++ rest)

/-- The elements of pieces that are pages. The others are expanded too, and left out. -/
def setSheets (expand : Node δ → Except Fault (Element δ))
    (set : Element δ → Except Fault (Block × List Mention)) (default : Page.Dimensions) :
    List (Piece δ) → Except Fault (List Sheet × List Mention)
  | [] => .ok ([], [])
  | .text _ :: ps => setSheets expand set default ps
  | .node n :: ps => do
    let e ← expand n
    if kind e = .page then do
      let (block, first) ← set e
      let (sheets, mentions) ← setSheets expand set default ps
      .ok (.ofBlock default block :: sheets, first ++ mentions)
    else setSheets expand set default ps

/-- The creator of a document that names none. -/
def defaultCreator : String := "folio"

/-- What a document element says about itself. -/
def metadata (e : Element δ) : Metadata :=
  ⟨e.props.title, e.props.author, e.props.subject, e.props.keywords,
    e.props.creator.getD defaultCreator, e.props.producer⟩

/-- A document of sheets that mention fonts and images. -/
def assemble (sheets : List Sheet) (mentions : List Mention) (metadata : Option Metadata) :
    Document :=
  ⟨sheets, fontUsages mentions, imageUsages mentions, metadata⟩

/-- The document of a document element. -/
def setDocument (render : Rendering δ) (s : Settings.Typesetting) (e : Element δ) :
    Except Fault Document := do
  let style := elementStyle e
  let typography := Typography.initial.apply style
  let (sheets, mentions) ←
    setSheets (expand render s.componentLimit) (setElement render s s.depthLimit typography)
      s.pageSize (Markup.pieces e.children)
  if sheets.isEmpty then .error .noPages
  else .ok (assemble sheets (typography.mentions style ++ mentions) (some (metadata e)))

/-- The document of a tree. -/
def typeset (render : Rendering δ) (s : Settings.Typesetting) (root : Node δ) :
    Except Fault Document := do
  let e ← expand render s.componentLimit root
  match kind e with
  | .document => setDocument render s e
  | .page => do
    let (block, mentions) ← setElement render s (s.depthLimit + 1) .initial e
    .ok (assemble [.ofBlock s.pageSize block] mentions none)
  | _ => do
    let (block, mentions) ← setElement render s (s.depthLimit + 1) .initial e
    .ok (assemble [⟨s.pageSize, .zero, .empty, [block]⟩] mentions none)

end Galley.Typeset

import Galley.Image.Source
import Galley.Page.Decode
import Galley.Style.Decode

/-!
# Properties

Every node of a tree carries properties: known fields, and extra ones under names of their own,
which components may look at. On reading, a field may be given once, under any of its keys; a
field that is null is not given.
-/

namespace Galley.Markup

/-- The properties of a node. -/
structure Props where
  /-- Utility classes. -/
  classes : Option String
  /-- An explicit style, which wins over the classes. -/
  style : Style
  size : Option Page.Size
  orientation : Option Page.Orientation
  margin : Option Page.Margin
  title : Option String
  author : Option String
  subject : Option String
  keywords : Option String
  creator : Option String
  producer : Option String
  /-- The source of an image. -/
  src : Option Image.Source
  /-- The target of a link. -/
  href : Option String
  extra : Dict Json

namespace Props

/-- No property. -/
def empty : Props :=
  ⟨none, .empty, none, none, none, none, none, none, none, none, none, none, none, .empty⟩

instance : Inhabited Props := ⟨empty⟩

/-- An extra property that is a text. -/
def text? (p : Props) (key : String) : Option String := (p.extra.get? key).bind Json.text?

/-- The known fields. -/
inductive Field where
  | classes
  | style
  | size
  | orientation
  | margin
  | title
  | author
  | subject
  | keywords
  | creator
  | producer
  | src
  | href
  deriving DecidableEq

/-- The field that a key stands for. The classes have three keys. -/
def Field.ofKey? : String → Option Field
  | "class" | "className" | "tw" => some classes
  | "style" => some style
  | "size" => some size
  | "orientation" => some orientation
  | "margin" => some margin
  | "title" => some title
  | "author" => some author
  | "subject" => some subject
  | "keywords" => some keywords
  | "creator" => some creator
  | "producer" => some producer
  | "src" => some src
  | "href" => some href
  | _ => none

/-- The name of a field in messages. -/
def Field.name : Field → String
  | classes => "class"
  | style => "style"
  | size => "size"
  | orientation => "orientation"
  | margin => "margin"
  | title => "title"
  | author => "author"
  | subject => "subject"
  | keywords => "keywords"
  | creator => "creator"
  | producer => "producer"
  | src => "src"
  | href => "href"

/-- A text that may be null. -/
def decodeText : Json → Json.Decoded (Option String) := Json.decodeOption Json.decodeText

/-- The properties with the value of a field. -/
def decodeField (p : Props) (v : Json) : Field → Json.Decoded Props
  | .classes => (decodeText v).map fun x => { p with classes := x }
  | .style => (Style.decode v).map fun x => { p with style := x }
  | .size => (Json.decodeOption Page.Size.decode v).map fun x => { p with size := x }
  | .orientation =>
    (Json.decodeOption Page.Orientation.decode v).map fun x => { p with orientation := x }
  | .margin => (Json.decodeOption Page.Margin.decode v).map fun x => { p with margin := x }
  | .title => (decodeText v).map fun x => { p with title := x }
  | .author => (decodeText v).map fun x => { p with author := x }
  | .subject => (decodeText v).map fun x => { p with subject := x }
  | .keywords => (decodeText v).map fun x => { p with keywords := x }
  | .creator => (decodeText v).map fun x => { p with creator := x }
  | .producer => (decodeText v).map fun x => { p with producer := x }
  | .src => (Json.decodeOption Image.Source.decode v).map fun x => { p with src := x }
  | .href => (decodeText v).map fun x => { p with href := x }

/-- The properties with the values of members, after some fields have been given. -/
def decodeMembers (given : List Field) (p : Props) : Fields Json → Json.Decoded Props
  | [] => .ok p
  | (key, v) :: ms =>
    match Field.ofKey? key with
    | none => decodeMembers given { p with extra := p.extra.insert key v } ms
    | some f =>
      if f ∈ given then .error (.repeated f.name)
      else do
        let p ← p.decodeField v f
        decodeMembers (f :: given) p ms

/-- The properties that an object denotes. -/
def decode : Json → Json.Decoded Props
  | .object ms => decodeMembers [] empty ms
  | v => .error (.kind v "struct Props")

end Props

end Galley.Markup

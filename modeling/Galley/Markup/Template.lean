import Galley.Markup.Node

/-!
# Templates

A component can be defined by a template: a tree with places for the properties that the component
receives, and for the component itself.
-/

namespace Galley.Markup

mutual

/-- The body of a component. -/
inductive Template where
  /-- An element, with a property whose text is its classes. -/
  | element (tag : String) (props : Props) (classKey : Option String) (parts : List Template.Part)
  | component (name : String) (props : Props) (body : Template)
  /-- The component that the template belongs to, with the properties that it received. -/
  | self
  | fixed (node : Node Empty)

/-- A child in a template. -/
inductive Template.Part where
  | node (t : Template)
  | text (s : String)
  | number (x : Float)
  | bool (b : Bool)
  | null
  | list (parts : List Template.Part)
  /-- An extra property that was received. -/
  | property (key : String)
  /-- An extra property that was received, if it is a text. -/
  | propertyText (key : String)

end

namespace Template

instance : Inhabited Template := ⟨.self⟩

instance : Inhabited Part := ⟨.null⟩

/-- A component by its name and its template. -/
structure Definition where
  name : String
  body : Template

/-- A received property as a child: an object by its JSON text, all else as it is. -/
def childOf : Json → Child Definition
  | .null => .null
  | .bool b => .bool b
  | .int n => .number (Decimal.ofInt n)
  | .float x => .number x
  | .text s => .text s
  | .list items => .list (childrenOf items)
  | .object ms => .text (Json.toText (.object ms))
where
  /-- Items as children. -/
  childrenOf : List Json → List (Child Definition)
    | [] => []
    | v :: vs => childOf v :: childrenOf vs

/-- The properties of an element with the classes that it receives. -/
def receiveClasses (received props : Props) : Option String → Props
  | none => props
  | some key => { props with classes := some ((received.text? key).getD "") }

mutual

/-- The node of a template within a component that received properties. -/
def fill (d : Definition) (received : Props) : Template → Node Definition
  | .element tag props classKey parts =>
    .element tag (receiveClasses received props classKey) (fillParts d received parts)
  | .component name props body => .component name props ⟨name, body⟩
  | .self => .component d.name received d
  | .fixed node => node.map Empty.elim

/-- The child of a part. -/
def fillPart (d : Definition) (received : Props) : Part → Child Definition
  | .node t => .node (fill d received t)
  | .text s => .text s
  | .number x => .number x
  | .bool b => .bool b
  | .null => .null
  | .list parts => .list (fillParts d received parts)
  | .property key => ((received.extra.get? key).map childOf).getD .null
  | .propertyText key => ((received.text? key).map .text).getD .null

/-- The children of parts. -/
def fillParts (d : Definition) (received : Props) : List Part → List (Child Definition)
  | [] => []
  | p :: ps => fillPart d received p :: fillParts d received ps

end

/-- The rendering of components that are defined by templates. -/
def rendering : Rendering Definition := fun d received => fill d received d.body

/-- A template on its own as a tree. -/
def tree (t : Template) : Node Definition := fill ⟨"", t⟩ .empty t

end Template

end Galley.Markup

import Galley.Markup.Props

/-!
# Trees

A node is an element, with a tag, properties and children, or a component, which stands for the
node that its definition renders from its properties. The definitions are of a type of their own,
so a component may render itself.
-/

namespace Galley.Markup

mutual

/-- A node of a tree whose components have definitions in `δ`. -/
inductive Node (δ : Type) where
  | element (tag : String) (props : Props) (children : List (Child δ))
  | component (name : String) (props : Props) (definition : δ)

/-- A child of an element. Lists stand for their items; truth values and null for nothing. -/
inductive Child (δ : Type) where
  | node (n : Node δ)
  | text (s : String)
  | number (x : Float)
  | bool (b : Bool)
  | null
  | list (items : List (Child δ))

end

variable {δ : Type}

instance : Inhabited (Child δ) := ⟨.null⟩

/-- What definitions mean: the node that one renders from properties. -/
abbrev Rendering (δ : Type) := δ → Props → Node δ

/-- An element apart from the tree it stands in. -/
structure Element (δ : Type) where
  tag : String
  props : Props
  children : List (Child δ)

/-- The element as a node. -/
def Element.node (e : Element δ) : Node δ := .element e.tag e.props e.children

/-- The tag of an element or the name of a component. -/
def Node.name : Node δ → String
  | .element tag _ _ => tag
  | .component name _ _ => name

/-- The text of a number child. -/
def numberText (x : Float) : String := if x == 0.0 then "0" else Decimal.plain x

/-- A child with lists resolved: a node, or a text. -/
inductive Piece (δ : Type) where
  | node (n : Node δ)
  | text (s : String)

mutual

/-- What a child contributes to its element. -/
def Child.pieces : Child δ → List (Piece δ)
  | .node n => [.node n]
  | .text s => [.text s]
  | .number x => [.text (numberText x)]
  | .bool _ | .null => []
  | .list items => pieces items

/-- What children contribute to their element, in order. -/
def pieces : List (Child δ) → List (Piece δ)
  | [] => []
  | c :: cs => c.pieces ++ pieces cs

end

theorem pieces_append (cs ds : List (Child δ)) : pieces (cs ++ ds) = pieces cs ++ pieces ds := by
  induction cs with
  | nil => rfl
  | cons c cs ih => simp [pieces, ih]

/-- A list stands for its items. -/
theorem pieces_list (items : List (Child δ)) : pieces [.list items] = pieces items := by
  simp [pieces, Child.pieces]

mutual

/-- The node with its definitions exchanged. -/
def Node.map {ε : Type} (f : δ → ε) : Node δ → Node ε
  | .element tag props children => .element tag props (mapChildren f children)
  | .component name props d => .component name props (f d)

/-- The child with its definitions exchanged. -/
def Child.map {ε : Type} (f : δ → ε) : Child δ → Child ε
  | .node n => .node (n.map f)
  | .text s => .text s
  | .number x => .number x
  | .bool b => .bool b
  | .null => .null
  | .list items => .list (mapChildren f items)

/-- The children with their definitions exchanged. -/
def mapChildren {ε : Type} (f : δ → ε) : List (Child δ) → List (Child ε)
  | [] => []
  | c :: cs => c.map f :: mapChildren f cs

end

end Galley.Markup

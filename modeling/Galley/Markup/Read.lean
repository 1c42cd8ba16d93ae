import Galley.Json.Reader
import Galley.Markup.Node
import Galley.Markup.Outline

/-!
# Reading trees

A tree is read from a JSON value: objects are elements, lists are lists of children, and all other
values are children as they are. What is found first decides: the tag of an object, then its
children in order, then its properties. A flaw is known by the path that leads to it; the path of
a flaw within a part begins with the step to that part.
-/

namespace Galley.Markup

variable {δ : Type}

/-- What is wrong with a value, and where in it. -/
structure Flaw where
  path : Fault.Path
  cause : Fault.Malformed

/-- What reading answers with. -/
abbrev Reading (α : Type) := Except Flaw α

/-- A flaw of the value itself. -/
def Reading.fail {α : Type} (cause : Fault.Malformed) : Reading α := .error ⟨[], cause⟩

/-- The reading of a part, seen from the whole. -/
def Reading.within {α : Type} (step : Fault.Step) : Reading α → Reading α
  | .ok a => .ok a
  | .error flaw => .error { flaw with path := step :: flaw.path }

/-- The properties of an element. -/
def readProps (o : Outline) : Reading Props :=
  match o.properties with
  | .error cause => .fail cause
  | .ok ms =>
    match Props.decode (.object ms) with
    | .ok p => .ok p
    | .error mismatch => Reading.within .props (.fail (.props mismatch))

mutual

/-- The node that a value denotes. -/
def readNode (v : Json) : Reading (Node δ) :=
  match v with
  | .object ms =>
    match _ : Outline.ofMembers ms with
    | .error cause => .fail cause
    | .ok o => do
      let children ←
        match _ : o.children with
        | none => .ok []
        | some c => readChildren c
      let props ← readProps o
      .ok (.element o.tag props children)
  | v => .fail (.notObject v)
termination_by 3 * sizeOf v
decreasing_by have := Outline.sizeOf_children_lt ‹_› ‹_›; rw [Json.object.sizeOf_spec]; omega

/-- The children that the children part of an object denotes. -/
def readChildren (v : Json) : Reading (List (Child δ)) :=
  match v with
  | .null => .ok []
  | .list items => readItems 0 items
  | v => do
    let c ← Reading.within .onlyChild (readChild v)
    .ok [c]
termination_by 3 * sizeOf v + 2
decreasing_by
  · rw [Json.list.sizeOf_spec]; omega
  · omega

/-- The child that a value denotes. -/
def readChild (v : Json) : Reading (Child δ) :=
  match v with
  | .null => .ok .null
  | .bool b => .ok (.bool b)
  | .int n => .ok (.number (Decimal.ofInt n))
  | .float x => .ok (.number x)
  | .text s => .ok (.text s)
  | .list items => do
    let cs ← readItems 0 items
    .ok (.list cs)
  | .object ms => do
    let n ← readNode (.object ms)
    .ok (.node n)
termination_by 3 * sizeOf v + 1
decreasing_by
  · rw [Json.list.sizeOf_spec]; omega
  · omega

/-- The children that the items of a list denote, from an index on. -/
def readItems (index : Nat) (items : List Json) : Reading (List (Child δ)) :=
  match items with
  | [] => .ok []
  | v :: vs => do
    let c ← Reading.within (.child index) (readChild v)
    let cs ← readItems (index + 1) vs
    .ok (c :: cs)
termination_by 3 * sizeOf items
decreasing_by
  · rw [List.cons.sizeOf_spec]; omega
  · rw [List.cons.sizeOf_spec]; omega

end

/-- A tree from a value. -/
def Node.ofJson (v : Json) : Except Fault (Node δ) :=
  match readNode v with
  | .ok n => .ok n
  | .error flaw => .error (.malformed flaw.path flaw.cause)

/-- A tree from a JSON text. -/
def Node.read (text : String) : Except Fault (Node δ) :=
  match Json.read text with
  | .error stop => .error (.syntaxError stop.line stop.column)
  | .ok v => Node.ofJson v

end Galley.Markup

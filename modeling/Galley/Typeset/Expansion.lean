import Galley.Fault
import Galley.Markup.Node

/-!
# Expansion of components

A component is rendered until an element comes out, at most as often as the limit allows, and at
least once.
-/

namespace Galley.Typeset

open Markup (Node Element Rendering)

variable {δ : Type}

/-- The element that a node leads to with a number of renderings, or the name of the component
where they are used up. -/
def reach (render : Rendering δ) : Nat → Node δ → Except String (Element δ)
  | _, .element tag props children => .ok ⟨tag, props, children⟩
  | 0, .component name _ _ => .error name
  | n + 1, .component _ props d => reach render n (render d props)

/-- The element that a node stands for. -/
def expand (render : Rendering δ) (limit : Nat) (n : Node δ) : Except Fault (Element δ) :=
  match reach render (max limit 1) n with
  | .ok e => .ok e
  | .error last => .error (.endlessComponent n.name last limit)

end Galley.Typeset

import Galley.Typeset.Expansion
import Mathlib

/-!
# What a node comes to

A node is rendered again and again (`rendered`); once it is an element, it stays that element. So
the number of renderings that expansion allows is all that matters of it.

**Theorem (`expand_eq`).** Expansion gives the element that a node is after as many renderings as
are allowed, and at least one. If it is a component even then, the fault names the node and that
component.
-/

namespace Galley

open Markup (Child Element Node Rendering)

variable {δ : Type} {render : Rendering δ}

/-- The element that a node is, unless it is a component. -/
def Markup.Node.element? : Node δ → Option (Element δ)
  | .element tag props children => some ⟨tag, props, children⟩
  | .component .. => none

@[simp] theorem Markup.Element.element?_node (e : Element δ) : e.node.element? = some e := rfl

theorem Markup.Node.element?_eq_some {n : Node δ} {e : Element δ} :
    n.element? = some e ↔ n = e.node := by
  constructor
  · intro h
    cases n with
    | element tag props children =>
      cases h
      rfl
    | component name props definition => cases h
  · rintro rfl
    rfl

namespace Typeset

/-- A component becomes what it renders, and an element stays. -/
def renderOnce (render : Rendering δ) : Node δ → Node δ
  | .element tag props children => .element tag props children
  | .component _ props definition => render definition props

/-- The node after a number of renderings. -/
def rendered (render : Rendering δ) (k : Nat) (n : Node δ) : Node δ := (renderOnce render)^[k] n

theorem rendered_component (k : Nat) (name : String) (props : Markup.Props) (definition : δ) :
    rendered render (k + 1) (.component name props definition) =
      rendered render k (render definition props) := rfl

theorem rendered_add (j k : Nat) (n : Node δ) :
    rendered render (j + k) n = rendered render j (rendered render k n) :=
  Function.iterate_add_apply _ j k n

/-- An element stays as it is. -/
@[simp] theorem rendered_node (k : Nat) (e : Element δ) : rendered render k e.node = e.node :=
  Function.iterate_fixed rfl k

/-- More renderings of what is an element already change nothing. -/
theorem rendered_of_le {j k : Nat} {n : Node δ} {e : Element δ} (hjk : j ≤ k)
    (h : rendered render j n = e.node) : rendered render k n = e.node := by
  obtain ⟨i, rfl⟩ := Nat.exists_eq_add_of_le' hjk
  rw [rendered_add, h, rendered_node]

theorem reach_eq (k : Nat) (n : Node δ) :
    reach render k n =
      match (rendered render k n).element? with
      | some e => .ok e
      | none => .error (rendered render k n).name := by
  induction k generalizing n with
  | zero => cases n <;> rfl
  | succ k ih =>
    cases n with
    | element tag props children =>
      have hstays := @rendered_node δ render (k + 1) ⟨tag, props, children⟩
      rw [Element.node] at hstays
      rw [hstays]
      rfl
    | component name props definition =>
      rw [rendered_component, ← ih]
      rfl

/-- **Expansion** is as many renderings as the limit says, and at least one. -/
theorem expand_eq (limit : Nat) (n : Node δ) :
    expand render limit n =
      match (rendered render (max limit 1) n).element? with
      | some e => .ok e
      | none =>
        .error (.endlessComponent n.name (rendered render (max limit 1) n).name limit) := by
  rw [expand, reach_eq]
  cases (rendered render (max limit 1) n).element? <;> rfl

theorem expand_eq_ok_iff {limit : Nat} {n : Node δ} {e : Element δ} :
    expand render limit n = .ok e ↔ rendered render (max limit 1) n = e.node := by
  rw [expand_eq, ← Markup.Node.element?_eq_some]
  cases (rendered render (max limit 1) n).element? <;> simp

/-- An element that is reached within the limit is what the node expands to. -/
theorem expand_of_rendered {k limit : Nat} {n : Node δ} {e : Element δ} (hk : k ≤ limit)
    (h : rendered render k n = e.node) : expand render limit n = .ok e :=
  expand_eq_ok_iff.2 (rendered_of_le (le_max_of_le_left hk) h)

@[simp] theorem expand_node (limit : Nat) (e : Element δ) : expand render limit e.node = .ok e :=
  expand_eq_ok_iff.2 (rendered_node _ e)

end Typeset

end Galley

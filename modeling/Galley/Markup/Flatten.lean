import Galley.Markup.Node

/-!
# Flattening without recursion

However deep lists of children are nested, they are flattened by a loop that goes from child to
child. The lists that are open wait on a stack, the innermost one first: a list among the children
is opened, and a list with no child left is closed.

What is out, and then the pieces of what is open, are the same in every state (`all_next?`). So the
loop ends with the pieces of the children, in order (`flatten_eq`).
-/

namespace Galley.Markup

variable {δ : Type}

/-- A state of the loop: the pieces that are out, and what is left of each open list. -/
structure Flattening (δ : Type) where
  out : List (Piece δ)
  stack : List (List (Child δ))

namespace Flattening

/-- The state after the next child, or after the innermost list is closed. -/
def next? : Flattening δ → Option (Flattening δ)
  | ⟨_, []⟩ => none
  | ⟨out, [] :: stack⟩ => some ⟨out, stack⟩
  | ⟨out, (.node n :: cs) :: stack⟩ => some ⟨out ++ [.node n], cs :: stack⟩
  | ⟨out, (.text s :: cs) :: stack⟩ => some ⟨out ++ [.text s], cs :: stack⟩
  | ⟨out, (.number x :: cs) :: stack⟩ => some ⟨out ++ [.text (numberText x)], cs :: stack⟩
  | ⟨out, (.list items :: cs) :: stack⟩ => some ⟨out, items :: cs :: stack⟩
  | ⟨out, (.bool _ :: cs) :: stack⟩ => some ⟨out, cs :: stack⟩
  | ⟨out, (.null :: cs) :: stack⟩ => some ⟨out, cs :: stack⟩

theorem sizeOf_next?_lt {f g : Flattening δ} (h : f.next? = some g) :
    sizeOf g.stack < sizeOf f.stack := by
  unfold next? at h
  split at h <;> cases h
  all_goals
    simp only [List.cons.sizeOf_spec, Child.list.sizeOf_spec]
    omega

/-- The pieces that are out when no list is open any more. -/
def run (f : Flattening δ) : List (Piece δ) :=
  match _h : f.next? with
  | none => f.out
  | some g => run g
termination_by sizeOf f.stack
decreasing_by exact sizeOf_next?_lt _h

/-- The pieces that are out, and those that are to come. -/
def all (f : Flattening δ) : List (Piece δ) := f.out ++ f.stack.flatMap pieces

theorem stack_of_next?_eq_none {f : Flattening δ} (h : f.next? = none) : f.stack = [] := by
  unfold next? at h
  split at h
  · rfl
  all_goals cases h

/-- **A step of the loop** neither loses a piece nor moves it. -/
theorem all_next? {f g : Flattening δ} (h : f.next? = some g) : g.all = f.all := by
  unfold next? at h
  split at h <;> cases h <;> simp [all, pieces, Child.pieces]

/-- **The loop** ends with all pieces, by induction on its steps. -/
theorem run_eq (f : Flattening δ) : f.run = f.all := by
  fun_induction run f with
  | case1 f h =>
    rw [all, stack_of_next?_eq_none h]
    exact (List.append_nil f.out).symm
  | case2 f g h ih => rw [ih, all_next? h]

end Flattening

/-- The pieces of children, found by the loop. -/
def flatten (cs : List (Child δ)) : List (Piece δ) := Flattening.run ⟨[], [cs]⟩

/-- **Flattening by the loop and by recursion agree.** -/
theorem flatten_eq (cs : List (Child δ)) : flatten cs = pieces cs := by
  rw [flatten, Flattening.run_eq, Flattening.all, List.nil_append, List.flatMap_singleton]

end Galley.Markup

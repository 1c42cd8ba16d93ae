import Galley.Proofs.Typeset.Course

/-!
# The limit of renderings

A component needs a number of renderings until an element comes out (`Needs`), unless it renders
components without end.

**Theorem (`expansion_exact`).** Let the limit be at least one. Typesetting renders no node more
often than the limit says. A component that needs at most as many renderings as that is expanded to
its element, and any other one is a fault, which names it, the component that it has become, and the
limit.

With a limit of zero a component is rendered once all the same (`expand_zeroLimit`).
-/

namespace Galley.Typeset

open Markup (Element Node Rendering)

variable {δ : Type} {render : Rendering δ}

/-- The node is the element after that many renderings, and a component before. -/
structure Needs (render : Rendering δ) (n : Node δ) (k : Nat) (e : Element δ) : Prop where
  element : rendered render k n = e.node
  component : ∀ j < k, (rendered render j n).element? = none

/-- A node that becomes an element needs no more renderings than those. -/
theorem exists_needs {n : Node δ} {e : Element δ} {j : Nat} (h : rendered render j n = e.node) :
    ∃ k ≤ j, Needs render n k e := by
  classical
  have hexists : ∃ k, rendered render k n = e.node := ⟨j, h⟩
  refine ⟨Nat.find hexists, Nat.find_min' hexists h, Nat.find_spec hexists, fun i hi => ?_⟩
  refine Option.eq_none_iff_forall_ne_some.2 fun e' he' => ?_
  have he' : rendered render i n = e'.node := Markup.Node.element?_eq_some.1 he'
  -- An element that came out earlier has stayed.
  have hsame : e'.node = e.node :=
    (rendered_of_le hi.le he').symm.trans (Nat.find_spec hexists)
  exact Nat.find_min hexists hi (he'.trans hsame)

/-- **A component that does not become an element** within the limit is a fault. -/
theorem expand_of_not_needs {limit : Nat} (hlimit : 1 ≤ limit) {n : Node δ}
    (h : ∀ k e, Needs render n k e → limit < k) :
    (rendered render limit n).element? = none ∧
      expand render limit n =
        .error (.endlessComponent n.name (rendered render limit n).name limit) := by
  have hnone : (rendered render limit n).element? = none := by
    refine Option.eq_none_iff_forall_ne_some.2 fun e he => ?_
    obtain ⟨k, hk, hneeds⟩ := exists_needs (Markup.Node.element?_eq_some.1 he)
    exact absurd (h k e hneeds) (Nat.not_lt_of_le hk)
  rw [expand_eq, max_eq_left hlimit, hnone]
  exact ⟨rfl, rfl⟩

/-- **The limit is exact**, if it is not zero: no node is rendered more often, and a node is
expanded to the element that it becomes within the limit. If it becomes none, the fault says so. -/
theorem expansion_exact {s : Settings.Typesetting} (hlimit : 1 ≤ s.componentLimit) :
    (∀ (root : Node δ) jobs, Steps render s (begin root) jobs →
      ∀ place first count n, .render place first count n ∈ jobs →
        count ≤ s.componentLimit ∧ rendered render count first = n) ∧
    ∀ n : Node δ,
      (∀ k e, Needs render n k e → k ≤ s.componentLimit →
        expand render s.componentLimit n = .ok e) ∧
      ((∀ k e, Needs render n k e → s.componentLimit < k) →
        ∃ name props definition f,
          rendered render s.componentLimit n = .component name props definition ∧
          expand render s.componentLimit n = .error f ∧
          f.report.code = .componentDepthExceeded ∧
          f.report.context.entries = [("component", .text n.name), ("last", .text name),
            ("limit", .nat s.componentLimit)]) := by
  refine ⟨fun root jobs hsteps place first count n hjob => ?_, fun n => ⟨?_, fun hneeds => ?_⟩⟩
  · obtain ⟨hcount, hn, -⟩ : Job.About render s root (.render place first count n) :=
      hsteps.about _ hjob
    exact ⟨max_eq_left hlimit ▸ hcount, hn⟩
  · intro k e hneeds hk
    exact expand_of_rendered hk hneeds.element
  · obtain ⟨hnone, hfault⟩ := expand_of_not_needs hlimit hneeds
    cases hlast : rendered render s.componentLimit n with
    | element tag props cs =>
      rw [hlast] at hnone
      cases hnone
    | component name props definition =>
      rw [hlast] at hfault
      exact ⟨name, props, definition, _, rfl, hfault, rfl, rfl⟩

/-- A component that renders another one, as often as its number says. -/
def countdown : Rendering Nat
  | 0, props => .element "view" props []
  | k + 1, props => .component "Count" props k

/-- Settings with two renderings for a node. -/
def twice : Settings.Typesetting := ⟨2, 128, .a4⟩

/-- Two renderings are enough for a countdown from one, but not for one from two. -/
theorem countdown_exact :
    1 ≤ twice.componentLimit ∧
    (∀ jobs, Steps countdown twice (begin (.component "Start" .empty 2)) jobs →
      ∀ place first count n, .render place first count n ∈ jobs → count ≤ 2) ∧
    Needs countdown (.component "Start" .empty 1) 2 ⟨"view", .empty, []⟩ ∧
    expand countdown 2 (.component "Start" .empty 1) = .ok ⟨"view", .empty, []⟩ ∧
    (∀ k e, Needs countdown (.component "Start" .empty 2) k e → 2 < k) ∧
    ∃ f, expand countdown 2 (.component "Start" .empty 2) = .error f ∧
      f.report.context.entries =
        [("component", .text "Start"), ("last", .text "Count"), ("limit", .nat 2)] := by
  have hlimit : 1 ≤ twice.componentLimit := by decide
  obtain ⟨hcounts, hexact⟩ := @expansion_exact _ countdown _ hlimit
  have hone : Needs countdown (.component "Start" .empty 1) 2 ⟨"view", .empty, []⟩ := by
    refine ⟨rfl, fun j hj => ?_⟩
    interval_cases j <;> rfl
  have htwo : ∀ k e, Needs countdown (.component "Start" .empty 2) k e → 2 < k := by
    intro k e hneeds
    by_contra hk
    cases rendered_of_le (Nat.le_of_not_lt hk) hneeds.element
  obtain ⟨name, props, definition, f, hlast, hfault, -, hcontext⟩ :=
    (hexact (.component "Start" .empty 2)).2 htwo
  cases hlast
  refine ⟨hlimit, fun jobs hsteps place first count n hjob => ?_, hone,
    (hexact _).1 2 _ hone le_rfl, htwo, f, hfault, hcontext⟩
  exact (hcounts _ jobs hsteps place first count n hjob).1

/-- With a limit of zero, a component that needs one rendering is rendered, and expanded. -/
theorem expand_zeroLimit :
    Needs once (.component "A" .empty ()) 1 ⟨"view", .empty, []⟩ ∧
    expand once 0 (.component "A" .empty ()) = .ok ⟨"view", .empty, []⟩ ∧
    Steps once ⟨0, 128, .a4⟩ (begin (.component "A" .empty ()))
      [.render .root (.component "A" .empty ()) 1 (.element "view" .empty [])] := by
  refine ⟨⟨rfl, fun j hj => ?_⟩, rfl, .head (.work rfl) .refl⟩
  obtain rfl := Nat.lt_one_iff.1 hj
  rfl

end Galley.Typeset

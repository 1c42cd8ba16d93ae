import Galley.Font.Registry

/-!
# The order of registered fonts

Fonts are registered for families in any spelling; a lookup goes by the key of a family.

**Theorem (`Registry.lookup?_found`).** A face gets the first font of its family with its weight and
slant, otherwise the first one of its family, and none exactly if the family has none.
-/

namespace Galley.Font

/-- The first element of a list that is of a kind. -/
def IsFirst {α : Type} (P : α → Prop) (as : List α) (a : α) : Prop :=
  ∃ before after, as = before ++ a :: after ∧ P a ∧ ∀ b ∈ before, ¬ P b

theorem isFirst_iff_find? {α : Type} {P : α → Prop} [DecidablePred P] {as : List α} {a : α} :
    IsFirst P as a ↔ as.find? (fun b => P b) = some a := by
  rw [List.find?_eq_some_iff_append]
  constructor
  · rintro ⟨before, after, heq, ha, hbefore⟩
    exact ⟨by simpa using ha, before, after, heq, by simpa using hbefore⟩
  · rintro ⟨ha, before, after, heq, hbefore⟩
    exact ⟨before, after, heq, by simpa using ha, by simpa using hbefore⟩

/-- A font registered for a family as it is written. -/
abbrev Registration := String × Descriptor

/-- The registration is for the family with the key. -/
def Registration.ForFamily (key : String) (e : Registration) : Prop := familyKey e.1 = key

/-- The registration is for the family of the face, and has its weight and slant. -/
def Registration.ForFace (face : Face) (e : Registration) : Prop :=
  e.ForFamily face.family ∧ e.2.weight = face.weight ∧ e.2.slant = face.slant

instance (key : String) : DecidablePred (Registration.ForFamily key) :=
  fun e => inferInstanceAs (Decidable (familyKey e.1 = key))

instance (face : Face) : DecidablePred (Registration.ForFace face) :=
  fun e => inferInstanceAs (Decidable (_ ∧ e.2.weight = face.weight ∧ e.2.slant = face.slant))

/-- What registrations give for a face. -/
inductive Found (es : List Registration) (face : Face) : Option Descriptor → Prop
  | exact {family : String} {d : Descriptor}
      (h : IsFirst (Registration.ForFace face) es (family, d)) : Found es face (some d)
  | fallback {family : String} {d : Descriptor} (hnone : ∀ e ∈ es, ¬ e.ForFace face)
      (h : IsFirst (Registration.ForFamily face.family) es (family, d)) : Found es face (some d)
  | missing (hnone : ∀ e ∈ es, ¬ e.ForFamily face.family) : Found es face none

namespace Registry

/-- The registry with registrations made one after another. -/
def registerAll (r : Registry) (es : List Registration) : Registry :=
  es.foldl (fun r e => r.register e.1 e.2) r

theorem registerAll_append (r : Registry) (es fs : List Registration) :
    r.registerAll (es ++ fs) = (r.registerAll es).registerAll fs := List.foldl_append

theorem registrations_registerAll (r : Registry) (es : List Registration) :
    (r.registerAll es).registrations = r.registrations ++ es.map fun e => (familyKey e.1, e.2) := by
  induction es generalizing r with
  | nil => simp [registerAll]
  | cons e es ih =>
    show ((r.register e.1 e.2).registerAll es).registrations = _
    rw [ih]
    simp [register]

variable {es : List Registration} {face : Face} {family : String}

theorem ofFamily_registerAll (es : List Registration) (key : String) :
    (empty.registerAll es).ofFamily key =
      (es.filter fun e => e.ForFamily key).map (·.2) := by
  rw [ofFamily, registrations_registerAll]
  simp only [empty, List.nil_append, List.filter_map, List.map_map]
  rfl

/-- The lookup, on the registrations as they were made. -/
theorem lookup?_registerAll (es : List Registration) (face : Face) :
    (empty.registerAll es).lookup? face = ((es.find? fun e => e.ForFace face).or
      (es.find? fun e => e.ForFamily face.family)).map (·.2) := by
  have hface : (fun e : Registration => decide (e.ForFace face)) = fun e =>
      decide (e.ForFamily face.family) &&
        (decide (e.2.weight = face.weight) && decide (e.2.slant = face.slant)) := by
    funext e
    rw [← Bool.decide_and, ← Bool.decide_and]
    rfl
  rw [lookup?, ofFamily_registerAll, List.find?_map, List.find?_filter, List.head?_map,
    List.head?_filter, Option.map_or, hface]
  simp

/-- **What a lookup gives.** -/
theorem lookup?_found (es : List Registration) (face : Face) :
    Found es face ((empty.registerAll es).lookup? face) := by
  rw [lookup?_registerAll]
  cases hexact : es.find? fun e => e.ForFace face with
  | some e => exact .exact (isFirst_iff_find?.2 hexact)
  | none =>
    have hnone : ∀ e ∈ es, ¬ e.ForFace face := by simpa using hexact
    cases hfamily : es.find? fun e => e.ForFamily face.family with
    | some e => exact .fallback hnone (isFirst_iff_find?.2 hfamily)
    | none => exact .missing (by simpa using hfamily)

theorem lookup?_eq_none_iff :
    (empty.registerAll es).lookup? face = none ↔ ∀ e ∈ es, ¬ e.ForFamily face.family := by
  rw [lookup?_registerAll, Option.map_eq_none_iff, Option.or_eq_none_iff]
  simp only [List.find?_eq_none, decide_eq_true_eq, and_iff_right_iff_imp]
  exact fun hnone e he hface => hnone e he hface.1

theorem contains_iff :
    (empty.registerAll es).contains family = true ↔ ∃ e ∈ es, e.ForFamily (familyKey family) := by
  rw [contains, ofFamily_registerAll]
  simp

end Registry

end Galley.Font

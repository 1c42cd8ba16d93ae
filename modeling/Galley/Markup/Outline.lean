import Galley.Fault

/-!
# Outlines of node objects

A node object names its tag under `type`; without that, the first key of `shorthands` that it has
is the tag, and the value there is what an element of that tag is given first. Next to the tag an
object gives children, properties under `props`, and further properties beside it. Two objects
with one outline denote one node.
-/

namespace Galley.Markup

/-- Keys that stand for a tag, each with the key that its value has in full form. -/
def shorthands : List (String × String) := [
  ("document", "children"), ("page", "children"), ("view", "children"), ("text", "children"),
  ("image", "src"), ("link", "href")]

/-- The parts of a node object. -/
structure Outline where
  tag : String
  children : Option Json
  props : Option Json
  /-- The members beside the named ones. -/
  inline : Fields Json

namespace Outline

/-- The members of an object that are none of its named parts. -/
def rest (ms : Fields Json) : Fields Json :=
  ((Fields.erase "type" ms).erase "children").erase "props"

/-- The outline of an object that stands under a shorthand key. -/
def ofShorthand (key target : String) (v : Json) (ms : Fields Json) : Outline :=
  let ms := Fields.erase key ms
  if target = "children" then ⟨key, some v, Fields.get? "props" ms, rest ms⟩
  else ⟨key, Fields.get? "children" ms, Fields.get? "props" ms, (rest ms).insert target v⟩

/-- The first shorthand that an object uses, with its value. -/
def shorthand? (ms : Fields Json) : List (String × String) → Option (String × String × Json)
  | [] => none
  | (key, target) :: ss =>
    match Fields.get? key ms with
    | some v => some (key, target, v)
    | none => shorthand? ms ss

/-- The outline of an object. -/
def ofMembers (ms : Fields Json) : Except Fault.Malformed Outline :=
  match Fields.get? "type" ms with
  | some (.text tag) =>
    if tag = "" then .error (.badType (.text tag))
    else .ok ⟨tag, Fields.get? "children" ms, Fields.get? "props" ms, rest ms⟩
  | some found => .error (.badType found)
  | none =>
    match shorthand? ms shorthands with
    | some (key, target, v) => .ok (ofShorthand key target v ms)
    | none => .error .noType

/-- Every member that is not in the first list is put into it. -/
def addMissing (ms : Fields Json) : Fields Json → Fields Json
  | [] => ms
  | (key, v) :: es =>
    match Fields.get? key ms with
    | some _ => addMissing ms es
    | none => addMissing (ms.insert key v) es

/-- All properties of an object: those under `props`, and those beside it under other keys. -/
def properties (o : Outline) : Except Fault.Malformed (Fields Json) :=
  match o.props with
  | none | some .null => .ok (addMissing [] o.inline)
  | some (.object ms) => .ok (addMissing ms o.inline)
  | some found => .error (.badProps found)

/-! ## Parts are smaller -/

theorem sizeOf_get?_lt {k : String} {v : Json} {ms : Fields Json} (h : ms.get? k = some v) :
    sizeOf v < sizeOf ms := by
  induction ms with
  | nil => simp [Fields.get?] at h
  | cons m ms ih =>
    obtain ⟨k', v'⟩ := m
    unfold Fields.get? at h
    split at h
    · cases h; simp; omega
    · have := ih h; simp; omega

theorem sizeOf_erase_le (k : String) (ms : Fields Json) : sizeOf (ms.erase k) ≤ sizeOf ms := by
  induction ms with
  | nil => simp [Fields.erase]
  | cons m ms ih =>
    have step : Fields.erase k (m :: ms) =
        if m.1 = k then Fields.erase k ms else m :: Fields.erase k ms := by
      by_cases h : m.1 = k <;> simp [Fields.erase, h]
    rw [step]
    split
    · simp; omega
    · simp; omega

theorem get?_of_shorthand? {ms : Fields Json} {ss : List (String × String)}
    {key target : String} {v : Json} (h : shorthand? ms ss = some (key, target, v)) :
    ms.get? key = some v := by
  induction ss with
  | nil => simp [shorthand?] at h
  | cons s ss ih =>
    unfold shorthand? at h
    split at h
    · rename_i found; cases h; exact found
    · exact ih h

/-- The children of an object are smaller than the object. -/
theorem sizeOf_children_lt {ms : Fields Json} {o : Outline} {v : Json}
    (h : ofMembers ms = .ok o) (hv : o.children = some v) : sizeOf v < sizeOf ms := by
  unfold ofMembers at h
  split at h
  · split at h
    · cases h
    · cases h; exact sizeOf_get?_lt hv
  · cases h
  · split at h
    · rename_i key target w found
      cases h
      unfold ofShorthand at hv
      split at hv
      · cases hv; exact sizeOf_get?_lt (get?_of_shorthand? found)
      · exact Nat.lt_of_lt_of_le (sizeOf_get?_lt hv) (sizeOf_erase_le key ms)
    · cases h

end Outline

end Galley.Markup

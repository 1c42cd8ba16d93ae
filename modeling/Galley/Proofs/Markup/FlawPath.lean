import Galley.Proofs.Decimal.Natural
import Galley.Proofs.Except
import Galley.Proofs.Markup.Spelling

/-!
# Where a flaw is

A value that is no tree is rejected with a path. The path is followed from the whole value, step by
step, through the full form of its node objects (`LeadsTo`).

**Theorem (`ofJson_leadsToFlaw`).** The path of a fault leads to a part that has the flaw by itself:
alone it is rejected at its own root, for the same cause. Every child value that is read before it
is accepted on its own.

Reading stops at the first fault, so one step of it tells all (`Part.Fails.cases`): either the part
itself is flawed, or the fault is that of one part of it, and what comes before that part has been
read. The theorem follows by induction on the path, and on the paths before it (`Path.Before`).
-/

namespace Galley

open Fault (Malformed Path Step)

/-! ## Paths -/

namespace Fault

/-- What is read first within a value: items in order, and properties after all children. -/
inductive Step.Before : Step → Step → Prop
  | item {i j : Nat} (h : i < j) : Before (.child i) (.child j)
  | listed (i : Nat) : Before (.child i) .props
  | only : Before .onlyChild .props

/-- One path parts from another one by a step to what is read first. -/
inductive Path.Before : Path → Path → Prop
  | here {s t : Step} (h : s.Before t) (p q : Path) : Before (s :: p) (t :: q)
  | within (s : Step) {p q : Path} (h : Before p q) : Before (s :: p) (s :: q)

/-- The characters of a path after its root. -/
def Path.chars (p : Path) : List Char := p.flatMap fun s => s.display.toList

theorem Path.toList_display (p : Path) : p.display.toList = "root".toList ++ p.chars := by
  rw [display, String.toList_append, String.toList_join, chars, List.flatMap_map]

@[simp] theorem Path.chars_nil : chars [] = [] := rfl

@[simp] theorem Path.chars_child (i : Nat) (p : Path) : chars (.child i :: p) =
    ".children[".toList ++ ((Decimal.natural i).toList ++ ']' :: p.chars) := by
  simp [chars, Step.display]

@[simp] theorem Path.chars_onlyChild (p : Path) :
    chars (.onlyChild :: p) = ".children".toList ++ p.chars := rfl

@[simp] theorem Path.chars_props (p : Path) : chars (.props :: p) = ".props".toList ++ p.chars := rfl

/-- Every step begins with a point. -/
theorem Path.chars_ne_bracket (p : Path) (s : List Char) : p.chars ≠ '[' :: s := by
  cases p with
  | nil => simp
  | cons t p => cases t <;> simp

/-- A step ends before the next one begins. -/
theorem Step.chars_inj {s t : Step} {p q : Path}
    (h : Path.chars (s :: p) = Path.chars (t :: q)) : s = t ∧ p.chars = q.chars := by
  cases s with
  | child i =>
    cases t with
    | child j =>
      rw [Path.chars_child, Path.chars_child, List.append_cancel_left_eq] at h
      obtain ⟨rfl, hrest⟩ := Decimal.natural_ended_inj (by decide) h
      exact ⟨rfl, hrest⟩
    | onlyChild => exact absurd (by simpa using h.symm) (q.chars_ne_bracket _)
    | props => simp at h
  | onlyChild =>
    cases t with
    | child j => exact absurd (by simpa using h) (p.chars_ne_bracket _)
    | onlyChild => exact ⟨rfl, List.append_cancel_left h⟩
    | props => simp at h
  | props =>
    cases t with
    | child j => simp at h
    | onlyChild => simp at h
    | props => exact ⟨rfl, List.append_cancel_left h⟩

/-- **A path is told by its text.** -/
theorem Path.display_injective {p q : Path} (h : p.display = q.display) : p = q := by
  have hchars : p.chars = q.chars := by
    have h := congrArg String.toList h
    rwa [toList_display, toList_display, List.append_cancel_left_eq] at h
  clear h
  induction p generalizing q with
  | nil =>
    cases q with
    | nil => rfl
    | cons t q => cases t <;> simp at hchars
  | cons s p ih =>
    cases q with
    | nil => cases s <;> simp at hchars
    | cons t q =>
      obtain ⟨rfl, hrest⟩ := Step.chars_inj hchars
      rw [ih hrest]

end Fault

namespace Markup

open Outline

variable {δ : Type} {ms : Fields Json} {cause : Malformed}

/-! ## Node objects in full form -/

/-- Does the key name a part of a node object? -/
def IsPart (k : String) : Prop := k = "type" ∨ k = "children" ∨ k = "props"

instance (k : String) : Decidable (IsPart k) := inferInstanceAs (Decidable (_ ∨ _))

/-- The members of a node object in full form: with the type in place of the first shorthand key in
the order of the table, and with the value of that key under the key that it has in full form. -/
def fullForm (ms : Fields Json) : Fields Json :=
  match Fields.get? "type" ms, shorthand? ms shorthands with
  | none, some (key, target, v) =>
    ((Fields.erase key ms).insert "type" (.text key)).insert target v
  | _, _ => ms

/-- What stands under `props` of a node object. -/
inductive Explicit (ms : Fields Json) : Fields Json → Prop
  | none (h : ms.get? "props" = none ∨ ms.get? "props" = some .null) : Explicit ms []
  | some {es : Fields Json} (h : ms.get? "props" = some (.object es)) : Explicit ms es

/-- All properties of a node object in full form, the explicit ones before those beside the parts,
in the order of their keys. -/
def AllProps (ms ps : Fields Json) : Prop :=
  ∃ es, Explicit ms es ∧ (es.Ascending → ps.Ascending) ∧
    ∀ k, ps.get? k = (es.get? k).or (if IsPart k then none else ms.get? k)

/-- An outline has the parts of the full form. -/
structure Outline.Outlines (o : Outline) (ms : Fields Json) : Prop where
  tag : ms.get? "type" = some (.text o.tag)
  children : o.children = ms.get? "children"
  props : o.props = ms.get? "props"
  inline : ∀ k, o.inline.get? k = if IsPart k then none else ms.get? k

theorem fullForm_of_type {v : Json} (h : ms.get? "type" = some v) : fullForm ms = ms := by
  simp only [fullForm, h]

theorem fullForm_of_shorthand {key target : String} {v : Json} (htype : ms.get? "type" = none)
    (h : shorthand? ms shorthands = some (key, target, v)) :
    fullForm ms = ((Fields.erase key ms).insert "type" (.text key)).insert target v := by
  simp only [fullForm, htype, h]

theorem fields_get?_rest (k : String) (ms : Fields Json) :
    (rest ms).get? k = if IsPart k then none else ms.get? k := by
  simp only [rest, Fields.get?_erase, IsPart]
  by_cases htype : k = "type" <;> by_cases hchildren : k = "children" <;>
    by_cases hprops : k = "props" <;> simp [htype, hchildren, hprops]

theorem ofShorthand_outlines {key target : String} {v : Json} (htype : ms.get? "type" = none)
    (h : shorthand? ms shorthands = some (key, target, v)) :
    (ofShorthand key target v ms).Outlines (fullForm ms) := by
  obtain ⟨-, -, -, -, htarget, hprops, -⟩ := shorthands_apart _ (mem_of_shorthand? h)
  have hget : ∀ k, (fullForm ms).get? k = if k = target then some v
      else if k = "type" then some (.text key) else (Fields.erase key ms).get? k := fun k => by
    rw [fullForm_of_shorthand htype h, Fields.get?_insert, Fields.get?_insert]
  have hrest : ∀ k, k ≠ target → (rest (Fields.erase key ms)).get? k =
      if IsPart k then none else (fullForm ms).get? k := by
    intro k hk
    rw [fields_get?_rest, hget, if_neg hk]
    by_cases hpart : IsPart k
    · simp [hpart]
    · have htype : k ≠ "type" := fun hk => hpart (.inl hk)
      simp [hpart, htype]
  unfold ofShorthand
  by_cases hchildren : target = "children"
  · rw [if_pos hchildren]
    refine ⟨by simp [hget, htarget.symm], by simp [hget, hchildren], by simp [hget, hprops.symm], ?_⟩
    intro k
    by_cases hk : k = target
    · simp [fields_get?_rest, IsPart, hk, hchildren]
    · exact hrest k hk
  · rw [if_neg hchildren]
    refine ⟨by simp [hget, htarget.symm], by simp [hget, Ne.symm hchildren],
      by simp [hget, hprops.symm], ?_⟩
    intro k
    rw [Fields.get?_insert]
    by_cases hk : k = target
    · simp [hget, hk, IsPart, htarget, hchildren, hprops]
    · rw [if_neg hk]
      exact hrest k hk

/-- **An outline has the parts of the full form.** -/
theorem ofMembers_outlines {o : Outline} (h : ofMembers ms = .ok o) :
    o.Outlines (fullForm ms) := by
  unfold ofMembers at h
  split at h
  · rename_i tag htype
    split at h
    · cases h
    · cases h
      rw [fullForm_of_type htype]
      exact ⟨htype, rfl, rfl, fun k => fields_get?_rest k ms⟩
  · cases h
  · rename_i htype
    split at h
    · rename_i key target v hfirst
      cases h
      exact ofShorthand_outlines htype hfirst
    · cases h

/-! ## Parts and the paths to them -/

/-- What a path may lead to. -/
inductive Part where
  | value (place : Place) (v : Json)
  | props (ps : Fields Json)

/-- One step from a part to a part of it. -/
inductive StepsTo : Part → Step → Part → Prop
  /-- An item of the children of a node object. -/
  | child {place : Place} {ms : Fields Json} {items : List Json} {i : Nat} {v : Json}
      (hchildren : (fullForm ms).get? "children" = some (.list items)) (hitem : items[i]? = some v) :
      StepsTo (.value place (.object ms)) (.child i) (.value .child v)
  /-- An item of a list among children. -/
  | item {items : List Json} {i : Nat} {v : Json} (hitem : items[i]? = some v) :
      StepsTo (.value .child (.list items)) (.child i) (.value .child v)
  /-- The child of a node object without a list. -/
  | onlyChild {place : Place} {ms : Fields Json} {v : Json}
      (hchildren : (fullForm ms).get? "children" = some v) (hnull : v ≠ .null)
      (hlist : ∀ items, v ≠ .list items) :
      StepsTo (.value place (.object ms)) .onlyChild (.value .child v)
  /-- All properties of a node object. -/
  | props {place : Place} {ms ps : Fields Json} (h : AllProps (fullForm ms) ps) :
      StepsTo (.value place (.object ms)) .props (.props ps)

/-- A path leads from a part to a part within it. -/
inductive LeadsTo : Part → Path → Part → Prop
  | here (a : Part) : LeadsTo a [] a
  | step {a b c : Part} {s : Step} {p : Path} (h : StepsTo a s b) (h' : LeadsTo b p c) :
      LeadsTo a (s :: p) c

/-- The part alone is rejected, for a cause that is found along a path. -/
def Part.Fails (δ : Type) (path : Path) (cause : Malformed) : Part → Prop
  | .value .tree v => (readNode v : Reading (Node δ)) = .error ⟨path, cause⟩
  | .value .child v => (readChild v : Reading (Child δ)) = .error ⟨path, cause⟩
  | .props ps => path = [] ∧
      ∃ mismatch, Props.decode (.object ps) = .error mismatch ∧ cause = .props mismatch

/-- A value is accepted as a child. -/
def Accepted (δ : Type) (v : Json) : Prop := ∃ c : Child δ, readChild v = .ok c

/-- What is wrong with a part itself, whatever its parts are. -/
inductive Part.Flawed : Part → Malformed → Prop
  | notObject {v : Json} (h : ∀ ms, v ≠ .object ms) : Flawed (.value .tree v) (.notObject v)
  | noType {place : Place} {ms : Fields Json} (h : (fullForm ms).get? "type" = none) :
      Flawed (.value place (.object ms)) .noType
  | badType {place : Place} {ms : Fields Json} {found : Json}
      (h : (fullForm ms).get? "type" = some found) (hfound : ∀ tag, found = .text tag → tag = "") :
      Flawed (.value place (.object ms)) (.badType found)
  | badProps {place : Place} {ms : Fields Json} {found : Json}
      (h : (fullForm ms).get? "props" = some found) (hnull : found ≠ .null)
      (hobject : ∀ es, found ≠ .object es) :
      Flawed (.value place (.object ms)) (.badProps found)
  | props {ps : Fields Json} {mismatch : Json.Mismatch}
      (h : Props.decode (.object ps) = .error mismatch) : Flawed (.props ps) (.props mismatch)

/-- A fault of a part is that of the part it steps to first, of all that are not accepted. -/
def Part.FailsWithin (δ : Type) (path : Path) (cause : Malformed) (a : Part) : Prop :=
  ∃ s p b, path = s :: p ∧ StepsTo a s b ∧ b.Fails δ p cause ∧
    ∀ t v, t.Before s → StepsTo a t (.value .child v) → Accepted δ v

/-! ## What one fault says -/

section OneFault

variable {path : Path} {place : Place} {items : List Json}

theorem readItems_accepted {index : Nat} {cs : List (Child δ)}
    (h : readItems index items = .ok cs) : ∀ v ∈ items, Accepted δ v := by
  induction items generalizing index cs with
  | nil => exact fun v hv => absurd hv List.not_mem_nil
  | cons w items ih =>
    rw [readItems] at h
    obtain ⟨c, hc, h⟩ := bind_eq_ok.1 h
    obtain ⟨cs', hcs, -⟩ := bind_eq_ok.1 h
    exact List.forall_mem_cons.2 ⟨⟨c, Reading.within_eq_ok hc⟩, ih hcs⟩

/-- The item that is at fault, by its place in the list, and the items before it. -/
theorem readItems_eq_error {index : Nat}
    (h : (readItems index items : Reading (List (Child δ))) = .error ⟨path, cause⟩) :
    ∃ i v p, path = .child (index + i) :: p ∧ items[i]? = some v ∧
      (readChild v : Reading (Child δ)) = .error ⟨p, cause⟩ ∧
      ∀ j w, j < i → items[j]? = some w → Accepted δ w := by
  induction items generalizing index with
  | nil =>
    rw [readItems] at h
    cases h
  | cons w items ih =>
    rw [readItems] at h
    rcases bind_eq_error.1 h with h | ⟨c, hc, h⟩
    · obtain ⟨p, rfl, hw⟩ := Reading.within_eq_error h
      exact ⟨0, w, p, rfl, rfl, hw, fun j w' hj => absurd hj (Nat.not_lt_zero j)⟩
    · rcases bind_eq_error.1 h with h | ⟨cs, -, h⟩
      · obtain ⟨i, v, p, rfl, hv, hfails, hbefore⟩ := ih h
        refine ⟨i + 1, v, p, by rw [Nat.add_right_comm, Nat.add_assoc], hv, hfails, ?_⟩
        intro j w' hj hw'
        cases j with
        | zero =>
          cases hw'
          exact ⟨c, Reading.within_eq_ok hc⟩
        | succ j => exact hbefore j w' (Nat.lt_of_succ_lt_succ hj) hw'
      · cases h

/-- Children that are read are accepted. -/
theorem readPart_accepted {cs : List (Child δ)}
    (h : readPart ((fullForm ms).get? "children") = .ok cs) {s : Step} {v : Json}
    (hstep : StepsTo (.value place (.object ms)) s (.value .child v)) : Accepted δ v := by
  cases hstep with
  | child hchildren hitem =>
    rw [hchildren, readPart, readChildren] at h
    exact readItems_accepted h v (List.mem_of_getElem? hitem)
  | onlyChild hchildren hnull hlist =>
    rw [hchildren, readPart, readChildren] at h
    · obtain ⟨c, hc, -⟩ := bind_eq_ok.1 h
      exact ⟨c, Reading.within_eq_ok hc⟩
    · exact hnull
    · exact hlist

/-- A fault of the children is that of a child. -/
theorem readPart_eq_error (h : (readPart ((fullForm ms).get? "children") :
      Reading (List (Child δ))) = .error ⟨path, cause⟩) :
    (Part.value place (.object ms)).FailsWithin δ path cause := by
  cases hchildren : (fullForm ms).get? "children" with
  | none =>
    rw [hchildren] at h
    cases h
  | some part =>
    rw [hchildren, readPart, readChildren.eq_def] at h
    split at h
    · cases h
    · obtain ⟨i, v, p, rfl, hv, hfails, hbefore⟩ := readItems_eq_error h
      rw [Nat.zero_add]
      refine ⟨_, p, _, rfl, .child hchildren hv, hfails, ?_⟩
      intro t w ht hstep
      cases ht with
      | item hj =>
        cases hstep with
        | child hchildren' hw =>
          rw [hchildren] at hchildren'
          cases hchildren'
          exact hbefore _ w hj hw
    · rename_i hnull hlist
      rcases bind_eq_error.1 h with h | ⟨c, -, h⟩
      · obtain ⟨p, rfl, hfails⟩ := Reading.within_eq_error h
        refine ⟨_, p, _, rfl, .onlyChild hchildren hnull hlist, hfails, fun t w ht => ?_⟩
        cases ht
      · cases h

theorem properties_allProps {o : Outline} (ho : o.Outlines ms) {ps : Fields Json}
    (h : o.properties = .ok ps) : AllProps ms ps := by
  have hinto : ∀ es, ∀ k, Fields.get? k (addMissing es o.inline) =
      (Fields.get? k es).or (if IsPart k then none else ms.get? k) := fun es k => by
    rw [get?_addMissing, ho.inline]
  unfold properties at h
  split at h
  · rename_i hnone
    cases h
    exact ⟨[], .none (.inl (ho.props ▸ hnone)), fun hes => ascending_addMissing hes _, hinto []⟩
  · rename_i hnull
    cases h
    exact ⟨[], .none (.inr (ho.props ▸ hnull)), fun hes => ascending_addMissing hes _, hinto []⟩
  · rename_i es hes
    cases h
    exact ⟨es, .some (ho.props ▸ hes), fun hes => ascending_addMissing hes _, hinto es⟩
  · cases h

theorem properties_eq_error {o : Outline} (ho : o.Outlines (fullForm ms))
    (h : o.properties = .error cause) : (Part.value place (.object ms)).Flawed cause := by
  unfold properties at h
  split at h
  · cases h
  · cases h
  · cases h
  · rename_i found hnull hobject hfound
    cases h
    exact .badProps (ho.props ▸ hfound) hnull hobject

/-- A fault of the properties is that they are none, or that they do not decode. -/
theorem readProps_eq_error {o : Outline} (ho : o.Outlines (fullForm ms))
    (h : readProps o = .error ⟨path, cause⟩) :
    path = [] ∧ (Part.value place (.object ms)).Flawed cause ∨
      ∃ ps mismatch, path = [.props] ∧ cause = .props mismatch ∧ AllProps (fullForm ms) ps ∧
        Props.decode (.object ps) = .error mismatch := by
  unfold readProps at h
  split at h
  · rename_i hproperties
    cases h
    exact .inl ⟨rfl, properties_eq_error ho hproperties⟩
  · rename_i ps hps
    split at h
    · cases h
    · rename_i mismatch hdecode
      cases h
      exact .inr ⟨ps, mismatch, rfl, rfl, properties_allProps ho hps, hdecode⟩

theorem ofMembers_eq_error (h : ofMembers ms = .error cause) :
    (Part.value place (.object ms)).Flawed cause := by
  unfold ofMembers at h
  split at h
  · rename_i tag htype
    split at h
    · rename_i hempty
      cases h
      refine .badType (by rw [fullForm_of_type htype]; exact htype) fun tag' htag => ?_
      cases htag
      exact hempty
    · cases h
  · rename_i found hfound htype
    cases h
    refine .badType (by rw [fullForm_of_type htype]; exact htype) fun tag htag => ?_
    exact (hfound tag htag).elim
  · rename_i htype
    split at h
    · cases h
    · rename_i hfirst
      cases h
      have hfull : fullForm ms = ms := by simp only [fullForm, htype, hfirst]
      exact .noType (by rw [hfull]; exact htype)

/-- What is at fault in a node object: itself, a child, or its properties after all children. -/
theorem readNode_eq_error (place : Place)
    (h : (readNode (.object ms) : Reading (Node δ)) = .error ⟨path, cause⟩) :
    path = [] ∧ (Part.value place (.object ms)).Flawed cause ∨
      (Part.value place (.object ms)).FailsWithin δ path cause := by
  rw [readNode_object] at h
  split at h
  · rename_i houtline
    cases h
    exact .inl ⟨rfl, ofMembers_eq_error houtline⟩
  · rename_i o houtline
    have ho : o.Outlines (fullForm ms) := ofMembers_outlines houtline
    rw [Outline.read, ho.children] at h
    rcases bind_eq_error.1 h with h | ⟨cs, hcs, h⟩
    · exact .inr (readPart_eq_error h)
    · rcases bind_eq_error.1 h with h | ⟨p, -, h⟩
      · rcases readProps_eq_error ho h with hown | ⟨ps, mismatch, rfl, rfl, hps, hdecode⟩
        · exact .inl hown
        · exact .inr ⟨_, [], _, rfl, .props hps, ⟨rfl, mismatch, hdecode, rfl⟩,
            fun t v _ => readPart_accepted hcs⟩
      · cases h

/-- **What one fault says**: the part itself is flawed, or one of its parts is at fault, and those
before it are accepted. -/
theorem Part.Fails.cases {a : Part} (h : a.Fails δ path cause) :
    path = [] ∧ a.Flawed cause ∨ a.FailsWithin δ path cause := by
  cases a with
  | props ps =>
    obtain ⟨rfl, mismatch, hdecode, rfl⟩ := h
    exact .inl ⟨rfl, .props hdecode⟩
  | value place v =>
    cases place with
    | tree =>
      have h : (readNode v : Reading (Node δ)) = .error ⟨path, cause⟩ := h
      cases v with
      | object ms => exact readNode_eq_error .tree h
      | _ =>
        rw [readNode] at h
        · cases h
          refine .inl ⟨rfl, .notObject fun ms hms => ?_⟩
          cases hms
        · intro ms hms
          cases hms
    | child =>
      have h : (readChild v : Reading (Child δ)) = .error ⟨path, cause⟩ := h
      rw [readChild.eq_def] at h
      cases v with
      | object ms =>
        rcases bind_eq_error.1 h with h | ⟨n, -, h⟩
        · exact readNode_eq_error .child h
        · cases h
      | list items =>
        rcases bind_eq_error.1 h with h | ⟨cs, -, h⟩
        · obtain ⟨i, v, p, rfl, hv, hfails, hbefore⟩ := readItems_eq_error h
          rw [Nat.zero_add]
          refine .inr ⟨_, p, _, rfl, .item hv, hfails, ?_⟩
          intro t w ht hstep
          cases hstep with
          | item hw =>
            cases ht with
            | item hj => exact hbefore _ w hj hw
        · cases h
      | _ => cases h

end OneFault

/-! ## What a path says -/

/-- **A path leads to the part at fault**, which is flawed by itself. -/
theorem Part.Fails.leadsTo {a : Part} {path : Path} (h : a.Fails δ path cause) :
    ∃ b, LeadsTo a path b ∧ b.Fails δ [] cause ∧ b.Flawed cause := by
  induction path generalizing a with
  | nil =>
    rcases h.cases with ⟨-, hflawed⟩ | ⟨s, p, b, hpath, -⟩
    · exact ⟨a, .here a, h, hflawed⟩
    · cases hpath
  | cons s path ih =>
    rcases h.cases with ⟨hpath, -⟩ | ⟨s', p, b, hpath, hstep, hfails, -⟩
    · cases hpath
    · cases hpath
      obtain ⟨c, hleads, hown⟩ := ih hfails
      exact ⟨c, .step hstep hleads, hown⟩

/-- A step that leads to a value leads nowhere else. -/
theorem StepsTo.unique {a b : Part} {s : Step} {v : Json} (h : StepsTo a s (.value .child v))
    (h' : StepsTo a s b) : b = .value .child v := by
  cases h with
  | child hchildren hitem =>
    cases h' with
    | child hchildren' hitem' =>
      rw [hchildren] at hchildren'
      cases hchildren'
      rw [hitem] at hitem'
      cases hitem'
      rfl
  | item hitem =>
    cases h' with
    | item hitem' =>
      rw [hitem] at hitem'
      cases hitem'
      rfl
  | onlyChild hchildren =>
    cases h' with
    | onlyChild hchildren' =>
      rw [hchildren] at hchildren'
      cases hchildren'
      rfl

/-- What an accepted value steps to is accepted. -/
theorem Accepted.of_stepsTo {v w : Json} {s : Step} (hv : Accepted δ v)
    (h : StepsTo (.value .child v) s (.value .child w)) : Accepted δ w := by
  obtain ⟨c, hc⟩ := hv
  cases v with
  | object ms =>
    rw [readChild] at hc
    obtain ⟨n, hn, -⟩ := bind_eq_ok.1 hc
    rw [readNode_object] at hn
    split at hn
    · cases hn
    · rename_i o houtline
      rw [Outline.read, (ofMembers_outlines houtline).children] at hn
      obtain ⟨cs, hcs, -⟩ := bind_eq_ok.1 hn
      exact readPart_accepted hcs h
  | list items =>
    rw [readChild] at hc
    obtain ⟨cs, hcs, -⟩ := bind_eq_ok.1 hc
    cases h with
    | item hitem => exact readItems_accepted hcs w (List.mem_of_getElem? hitem)
  | _ => cases h

/-- A path to a value goes over values, since properties have no parts. -/
theorem LeadsTo.over_value {a : Part} {s : Step} {p : Path} {v : Json}
    (h : LeadsTo a (s :: p) (.value .child v)) :
    ∃ u, StepsTo a s (.value .child u) ∧ LeadsTo (.value .child u) p (.value .child v) := by
  cases h with
  | step hstep hrest =>
    cases hstep with
    | child hchildren hitem => exact ⟨_, .child hchildren hitem, hrest⟩
    | item hitem => exact ⟨_, .item hitem, hrest⟩
    | onlyChild hchildren hnull hlist => exact ⟨_, .onlyChild hchildren hnull hlist, hrest⟩
    | props =>
      cases hrest with
      | step hstep => cases hstep

/-- What is within an accepted value is accepted, by induction on the path to it. -/
theorem Accepted.of_leadsTo {v w : Json} {p : Path} (hv : Accepted δ v)
    (h : LeadsTo (.value .child v) p (.value .child w)) : Accepted δ w := by
  induction p generalizing v with
  | nil =>
    cases h with
    | here => exact hv
  | cons s p ih =>
    obtain ⟨u, hstep, hrest⟩ := h.over_value
    exact ih (hv.of_stepsTo hstep) hrest

/-- **What comes before a fault is accepted**, by induction on the steps that both paths share. -/
theorem Part.Fails.accepted {a : Part} {path p : Path} (h : a.Fails δ path cause)
    (hp : p.Before path) {v : Json} (hleads : LeadsTo a p (.value .child v)) : Accepted δ v := by
  induction hp generalizing a with
  | @here s t hs p q =>
    obtain ⟨u, hstep, hrest⟩ := hleads.over_value
    rcases h.cases with ⟨hpath, -⟩ | ⟨t', q', b, hpath, -, -, hbefore⟩
    · cases hpath
    · cases hpath
      exact (hbefore s u hs hstep).of_leadsTo hrest
  | @within s p q hp ih =>
    obtain ⟨u, hstep, hrest⟩ := hleads.over_value
    rcases h.cases with ⟨hpath, -⟩ | ⟨s', q', b, hpath, hstep', hfails, -⟩
    · cases hpath
    · cases hpath
      rw [hstep.unique hstep'] at hfails
      exact ih hfails hrest

/-- **The path of a fault leads to the flaw.** The text of the path tells it; what it leads to is
flawed, and rejected alone for the same cause; and all child values before it are accepted. -/
theorem ofJson_leadsToFlaw {v : Json} {fault : Fault}
    (h : (Node.ofJson v : Except Fault (Node δ)) = .error fault) :
    ∃ path cause part, fault = .malformed path cause ∧
      (fault.report.code = .invalidDocument ∧
        fault.report.message = path.display ++ ": " ++ cause.message ∧
        fault.report.context.get? "path" = some (.text path.display) ∧
        ∀ other : Path, other.display = path.display → other = path) ∧
      (LeadsTo (.value .tree v) path part ∧ part.Fails δ [] cause ∧ part.Flawed cause) ∧
      ∀ p w, p.Before path → LeadsTo (.value .tree v) p (.value .child w) → Accepted δ w := by
  unfold Node.ofJson at h
  split at h
  · cases h
  · rename_i flaw hflaw
    cases h
    obtain ⟨path, cause⟩ := flaw
    have hfails : (Part.value .tree v).Fails δ path cause := hflaw
    obtain ⟨part, hleads, hown, hflawed⟩ := hfails.leadsTo
    exact ⟨path, cause, part, rfl, ⟨rfl, rfl, rfl, fun other => Path.display_injective⟩,
      ⟨hleads, hown, hflawed⟩, fun p w hp => hfails.accepted hp⟩

/-! ## A page with a flaw -/

/-- A page of a text, a list, and a view whose only child is an image with a number for its title. -/
def titledPage : Json :=
  .object [("page", .list [.text "a", .list [.null, .object [("text", .text "b")]],
    .object [("view", .object [("image", .text "c.png"), ("title", .int 5)])]])]

/-- The path is shown with its text, and the text within the list before it is accepted. -/
theorem titledPage_leadsToFlaw :
    (Node.ofJson titledPage : Except Fault (Node Empty)) =
      .error (.malformed [.child 2, .onlyChild, .props] (.props (.kind (.int 5) "a string"))) ∧
    Path.display [.child 2, .onlyChild, .props] = "root.children[2].children.props" ∧
    Accepted Empty (.object [("text", .text "b")]) := by
  have hread : (Node.ofJson titledPage : Except Fault (Node Empty)) =
      .error (.malformed [.child 2, .onlyChild, .props] (.props (.kind (.int 5) "a string"))) := by
    cbv
  obtain ⟨path, cause, part, hfault, -, -, hbefore⟩ := ofJson_leadsToFlaw hread
  cases hfault
  refine ⟨hread, by decide, hbefore [.child 1, .child 1] _ (.here (.item (by decide)) _ _) ?_⟩
  exact .step (.child rfl rfl) (.step (.item rfl) (.here _))

end Markup

end Galley

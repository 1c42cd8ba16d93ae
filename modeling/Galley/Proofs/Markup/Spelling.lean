import Galley.Markup.Read
import Mathlib

/-!
# One tree in many spellings

A node object may be written with a shorthand key or with its type, with its properties beside the
type or under `props`, and with or without empty children and properties (`SameForm`). Two values
are spellings of one tree if such changes lead from one to the other, at any number of node objects
and at any depth (`Respelled`).

**Theorem (`ofJson_respelled`).** Spellings of one tree are read alike: as one tree, or with one
fault, which has one message and one path.

A change of form does not reach the tree: it leaves the outline of the object as it is, or changes a
part of it that is read alike (`Outline.Alike`). Objects are dictionaries here, so that outlines can
be compared key by key.
-/

namespace Galley

namespace Markup

variable {δ : Type} {d d' : Dict Json}

/-! ## Forms and places -/

/-- Two forms of one node object. -/
inductive SameForm : Dict Json → Dict Json → Prop
  /-- The first shorthand key in the order of the table stands for the tag, and for the key that its
  value has in full form. -/
  | shorthand {d : Dict Json} {key target : String} {v : Json} (htype : d.get? "type" = none)
      (hfirst : Outline.shorthand? d.entries shorthands = some (key, target, v))
      (hfree : d.get? target = none) :
      SameForm d (((d.erase key).insert "type" (.text key)).insert target v)
  /-- The keys beside the type and the children may stand under `props`. -/
  | props {d d' : Dict Json} (htype : d.contains "type" = true) (hnone : d.get? "props" = none)
      (hmoved : ∀ k, d'.get? k =
        if k = "props" then some (.object ((d.erase "type").erase "children").entries)
        else if k = "type" ∨ k = "children" then d.get? k else none) :
      SameForm d d'
  /-- No children are an empty list of children. -/
  | noChildren {d : Dict Json} (h : d.get? "children" = none ∨ d.get? "children" = some .null) :
      SameForm d (d.insert "children" (.list []))
  /-- No properties are an empty object of properties. -/
  | noProps {d : Dict Json} (h : d.get? "props" = none ∨ d.get? "props" = some .null) :
      SameForm d (d.insert "props" (.object []))

/-- The key under which an object has its children. -/
def childrenKey (d : Dict Json) : String :=
  match d.get? "type", Outline.shorthand? d.entries shorthands with
  | none, some (key, target, _) => if target = "children" then key else "children"
  | _, _ => "children"

/-- What a value stands for: a whole tree, or a child or the children of an element. A list of
children has node objects in it, while a list is no tree. -/
inductive Place where
  | tree
  | child

/-- Two values that differ by the forms of node objects. -/
inductive Respelled : Place → Json → Json → Prop
  | refl (place : Place) (v : Json) : Respelled place v v
  | symm {place : Place} {v w : Json} (h : Respelled place v w) : Respelled place w v
  | trans {place : Place} {u v w : Json} (h : Respelled place u v) (h' : Respelled place v w) :
      Respelled place u w
  | form {place : Place} {d d' : Dict Json} (h : SameForm d d') :
      Respelled place (.object d.entries) (.object d'.entries)
  | children {place : Place} {d : Dict Json} {v w : Json} (hv : d.get? (childrenKey d) = some v)
      (h : Respelled .child v w) :
      Respelled place (.object d.entries) (.object (d.insert (childrenKey d) w).entries)
  | item (before after : List Json) {v w : Json} (h : Respelled .child v w) :
      Respelled .child (.list (before ++ v :: after)) (.list (before ++ w :: after))

/-! ## Outlines key by key -/

namespace Outline

theorem mem_of_shorthand? {ms : Fields Json} {ss : List (String × String)} {key target : String}
    {v : Json} (h : shorthand? ms ss = some (key, target, v)) : (key, target) ∈ ss := by
  induction ss with
  | nil => cases h
  | cons s ss ih =>
    obtain ⟨key', target'⟩ := s
    rw [shorthand?] at h
    split at h
    · cases h
      exact List.mem_cons_self
    · exact List.mem_cons_of_mem _ (ih h)

theorem shorthand?_congr {ms ms' : Fields Json} {ss : List (String × String)}
    (h : ∀ s ∈ ss, Fields.get? s.1 ms' = Fields.get? s.1 ms) :
    shorthand? ms' ss = shorthand? ms ss := by
  induction ss with
  | nil => rfl
  | cons s ss ih =>
    obtain ⟨key, target⟩ := s
    rw [shorthand?, shorthand?, h _ List.mem_cons_self,
      ih fun s hs => h s (List.mem_cons_of_mem _ hs)]

/-- Another value under the first shorthand key. -/
theorem shorthand?_insert {ss : List (String × String)} {key target : String} {v w : Json}
    (h : shorthand? d.entries ss = some (key, target, v)) :
    shorthand? (d.insert key w).entries ss = some (key, target, w) := by
  induction ss with
  | nil => cases h
  | cons s ss ih =>
    obtain ⟨key', target'⟩ := s
    have hget : Fields.get? key' (d.insert key w).entries =
        if key' = key then some w else Fields.get? key' d.entries := d.get?_insert key key' w
    rw [shorthand?] at h ⊢
    rw [hget]
    split at h
    · cases h
      simp
    · rename_i hnone
      by_cases hkey : key' = key
      · rw [hkey, get?_of_shorthand? h] at hnone
        cases hnone
      · simpa [hkey, hnone] using ih h

/-- The keys of the table are none of the parts of an object, and their values have one of three
places. -/
theorem shorthands_apart : ∀ s ∈ shorthands, s.1 ≠ "" ∧ s.1 ≠ "type" ∧ s.1 ≠ "children" ∧
    s.1 ≠ "props" ∧ s.2 ≠ "type" ∧ s.2 ≠ "props" ∧ s.1 ≠ s.2 := by
  decide

theorem get?_rest (d : Dict Json) (k : String) :
    (((d.erase "type").erase "children").erase "props").get? k =
      if k = "type" ∨ k = "children" ∨ k = "props" then none else d.get? k := by
  simp only [Dict.get?_erase]
  by_cases htype : k = "type" <;> by_cases hchildren : k = "children" <;>
    by_cases hprops : k = "props" <;> simp [htype, hchildren, hprops]

theorem rest_congr (h : ∀ k, k ≠ "type" → k ≠ "children" → k ≠ "props" → d'.get? k = d.get? k) :
    rest d'.entries = rest d.entries := by
  have hrest : ((d'.erase "type").erase "children").erase "props" =
      ((d.erase "type").erase "children").erase "props" := by
    refine Dict.ext_get? fun k => ?_
    rw [get?_rest, get?_rest]
    by_cases hk : k = "type" ∨ k = "children" ∨ k = "props"
    · simp [hk]
    · rw [if_neg hk, if_neg hk]
      rw [not_or, not_or] at hk
      exact h k hk.1 hk.2.1 hk.2.2
  exact congrArg Dict.entries hrest

theorem ofMembers_tag {tag : String} (h : d.get? "type" = some (.text tag)) (hne : tag ≠ "") :
    ofMembers d.entries = .ok ⟨tag, d.get? "children", d.get? "props", rest d.entries⟩ := by
  have htype : Fields.get? "type" d.entries = some (.text tag) := h
  simp only [ofMembers, htype, if_neg hne]
  rfl

/-- The type of an object decides whether it has an outline. -/
theorem ofMembers_typed (t : Json) :
    (∃ cause, ∀ d : Dict Json, d.get? "type" = some t → ofMembers d.entries = .error cause) ∨
    ∃ tag, ∀ d : Dict Json, d.get? "type" = some t → ofMembers d.entries =
      .ok ⟨tag, d.get? "children", d.get? "props", rest d.entries⟩ := by
  by_cases htag : ∃ tag, t = .text tag ∧ tag ≠ ""
  · obtain ⟨tag, rfl, hne⟩ := htag
    exact .inr ⟨tag, fun d h => ofMembers_tag h hne⟩
  · refine .inl ⟨.badType t, fun d h => ?_⟩
    have htype : Fields.get? "type" d.entries = some t := h
    cases t with
    | text tag =>
      have hempty : tag = "" := by simpa using htag
      simp [ofMembers, htype, hempty]
    | _ => simp [ofMembers, htype]

theorem ofMembers_shorthand {key target : String} {v : Json} (htype : d.get? "type" = none)
    (h : shorthand? d.entries shorthands = some (key, target, v)) :
    ofMembers d.entries = .ok (ofShorthand key target v d.entries) := by
  have htype' : Fields.get? "type" d.entries = none := htype
  simp only [ofMembers, htype', h]

/-- Objects that differ in their children and properties parts alone have outlines that differ in
nothing else. The children of a shorthand may stand under another key, and then they are the same. -/
theorem ofMembers_parts (h : ∀ k, k ≠ "children" → k ≠ "props" → d'.get? k = d.get? k) :
    (∃ cause, ofMembers d.entries = .error cause ∧ ofMembers d'.entries = .error cause) ∨
      ∃ o children, ofMembers d.entries = .ok o ∧ o.props = d.get? "props" ∧
        ofMembers d'.entries = .ok ⟨o.tag, children, d'.get? "props", o.inline⟩ ∧
        (children = o.children ∨
          o.children = d.get? "children" ∧ children = d'.get? "children") := by
  have htype : Fields.get? "type" d'.entries = Fields.get? "type" d.entries :=
    h _ (by decide) (by decide)
  have hfirst : shorthand? d'.entries shorthands = shorthand? d.entries shorthands :=
    shorthand?_congr fun s hs =>
      h s.1 (shorthands_apart s hs).2.2.1 (shorthands_apart s hs).2.2.2.1
  simp only [ofMembers, htype, hfirst]
  split
  · split
    · exact .inl ⟨_, rfl, rfl⟩
    · rw [rest_congr fun k _ hc hp => h k hc hp]
      exact .inr ⟨_, _, rfl, rfl, rfl, .inr ⟨rfl, rfl⟩⟩
  · exact .inl ⟨_, rfl, rfl⟩
  · split
    · rename_i key target v hs
      obtain ⟨-, -, hchildren, hprops, -, -, -⟩ := shorthands_apart _ (mem_of_shorthand? hs)
      have hget : ∀ (d : Dict Json) {k}, k ≠ key → Fields.get? k (Fields.erase key d.entries) =
          d.get? k := fun d k hk => (d.get?_erase key k).trans (if_neg hk)
      have hrest : rest (d'.erase key).entries = rest (d.erase key).entries := by
        refine rest_congr fun k _ hc hp => ?_
        rw [Dict.get?_erase, Dict.get?_erase, h k hc hp]
      have hrest : rest (Fields.erase key d'.entries) = rest (Fields.erase key d.entries) := hrest
      simp only [ofShorthand, hrest, hget d hprops.symm, hget d' hprops.symm,
        hget d hchildren.symm, hget d' hchildren.symm]
      by_cases htarget : target = "children"
      · exact .inr ⟨_, some v, rfl, by simp [htarget], by simp [htarget], .inl (by simp [htarget])⟩
      · refine .inr ⟨_, d'.get? "children", rfl, ?_, ?_, .inr ⟨?_, rfl⟩⟩ <;> simp [htarget]
    · exact .inl ⟨_, rfl, rfl⟩

/-! ## All properties of an object -/

theorem get?_addMissing (k : String) (ms es : Fields Json) :
    Fields.get? k (addMissing ms es) = (Fields.get? k ms).or (Fields.get? k es) := by
  induction es generalizing ms with
  | nil => simp [addMissing, Fields.get?]
  | cons e es ih =>
    obtain ⟨key, v⟩ := e
    rw [addMissing]
    split
    · rename_i found hfound
      rw [ih]
      by_cases hk : k = key
      · simp [Fields.get?, hk, hfound]
      · simp [Fields.get?, hk]
    · rename_i hnone
      rw [ih, Fields.get?_insert]
      by_cases hk : k = key
      · simp [Fields.get?, hk, hnone]
      · simp [Fields.get?, hk]

theorem ascending_addMissing {ms : Fields Json} (h : ms.Ascending) (es : Fields Json) :
    (addMissing ms es).Ascending := by
  induction es generalizing ms with
  | nil => exact h
  | cons e es ih =>
    obtain ⟨key, v⟩ := e
    rw [addMissing]
    split
    · exact ih h
    · exact ih (Fields.ascending_insert key v h)

/-- Without explicit properties, the ones beside are all. -/
theorem addMissing_nil (d : Dict Json) : addMissing [] d.entries = d.entries := by
  refine Fields.eq_of_get?_eq (ascending_addMissing List.Pairwise.nil _) d.ascending fun k => ?_
  rw [get?_addMissing]
  rfl

/-! ## Outlines that are read alike -/

/-- The children that the children part of an object denotes. -/
def readPart : Option Json → Reading (List (Child δ))
  | none => .ok []
  | some v => readChildren v

/-- The element that an outline denotes. -/
def read (o : Outline) : Reading (Node δ) := do
  let children ← readPart o.children
  let props ← readProps o
  .ok (.element o.tag props children)

/-- Two outlines of one element. -/
structure Alike (δ : Type) (o o' : Outline) : Prop where
  tag : o'.tag = o.tag
  children : (readPart o'.children : Reading (List (Child δ))) = readPart o.children
  properties : o'.properties = o.properties

theorem Alike.read {o o' : Outline} (h : Alike δ o o') :
    (o'.read : Reading (Node δ)) = o.read := by
  have hprops : readProps o' = readProps o := by rw [readProps, readProps, h.properties]
  rw [Outline.read, Outline.read, h.tag, h.children, hprops]

end Outline

open Outline

theorem Reading.within_eq_ok {α : Type} {step : Fault.Step} {r : Reading α} {a : α}
    (h : Reading.within step r = .ok a) : r = .ok a := by
  cases r with
  | ok b => exact h
  | error flaw => cases h

theorem Reading.within_eq_error {α : Type} {step : Fault.Step} {r : Reading α} {path : Fault.Path}
    {cause : Fault.Malformed} (h : Reading.within step r = .error ⟨path, cause⟩) :
    ∃ p, path = step :: p ∧ r = .error ⟨p, cause⟩ := by
  cases r with
  | ok a => cases h
  | error flaw =>
    cases h
    exact ⟨_, rfl, rfl⟩

/-- An object is read by its outline. -/
theorem readNode_object (ms : Fields Json) : (readNode (.object ms) : Reading (Node δ)) =
    match ofMembers ms with
    | .error cause => .fail cause
    | .ok o => o.read := by
  rw [readNode]
  split
  · rename_i cause h
    simp only [h]
  · rename_i o h
    simp only [h, Outline.read, readPart]
    cases o.children <;> rfl

/-- Objects without an outline for one cause, or with outlines of one element, are read alike. -/
theorem readNode_congr {ms ms' : Fields Json}
    (h : (∃ cause, ofMembers ms = .error cause ∧ ofMembers ms' = .error cause) ∨
      ∃ o o', ofMembers ms = .ok o ∧ ofMembers ms' = .ok o' ∧ Alike δ o o') :
    (readNode (.object ms') : Reading (Node δ)) = readNode (.object ms) := by
  rw [readNode_object, readNode_object]
  rcases h with ⟨cause, h, h'⟩ | ⟨o, o', h, h', halike⟩
  · rw [h, h']
  · rw [h, h']
    exact halike.read

/-! ## Forms are read alike -/

theorem readNode_shorthand {key target : String} {v : Json} (htype : d.get? "type" = none)
    (hfirst : shorthand? d.entries shorthands = some (key, target, v)) :
    (readNode (.object (((d.erase key).insert "type" (.text key)).insert target v).entries) :
      Reading (Node δ)) = readNode (.object d.entries) := by
  obtain ⟨hempty, -, -, -, htarget, hprops, -⟩ := shorthands_apart _ (mem_of_shorthand? hfirst)
  have hget : ∀ k, (((d.erase key).insert "type" (.text key)).insert target v).get? k =
      if k = target then some v else if k = "type" then some (.text key)
      else (d.erase key).get? k := fun k => by rw [Dict.get?_insert, Dict.get?_insert]
  generalize ((d.erase key).insert "type" (.text key)).insert target v = d' at hget
  have htag : d'.get? "type" = some (.text key) := by simp [hget, htarget.symm]
  have hfull : ofMembers d'.entries =
      .ok ⟨key, d'.get? "children", d'.get? "props", rest d'.entries⟩ := ofMembers_tag htag hempty
  have hsame : ofMembers d'.entries = ofMembers d.entries := by
    rw [hfull, ofMembers_shorthand htype hfirst, ofShorthand, hget "props", if_neg hprops.symm,
      if_neg (by decide)]
    by_cases hchildren : target = "children"
    · rw [if_pos hchildren, hget, if_pos hchildren.symm,
        rest_congr (d := d.erase key) fun k ht hc _ => by rw [hget, if_neg (hchildren ▸ hc), if_neg ht]]
      rfl
    · have hrest : ((d'.erase "type").erase "children").erase "props" =
          ((((d.erase key).erase "type").erase "children").erase "props").insert target v := by
        refine Dict.ext_get? fun k => ?_
        rw [Dict.get?_insert, get?_rest, get?_rest, hget]
        by_cases hk : k = target
        · simp [hk, htarget, hprops, hchildren]
        · by_cases ht : k = "type"
          · simp [ht, htarget.symm]
          · simp [hk, ht]
      rw [if_neg hchildren, hget, if_neg (Ne.symm hchildren), if_neg (by decide)]
      exact congrArg (fun r : Dict Json => Except.ok (⟨key, _, _, r.entries⟩ : Outline)) hrest
  rw [readNode_object, readNode_object, hsame]

theorem readNode_props (htype : d.contains "type" = true) (hnone : d.get? "props" = none)
    (hmoved : ∀ k, d'.get? k =
      if k = "props" then some (.object ((d.erase "type").erase "children").entries)
      else if k = "type" ∨ k = "children" then d.get? k else none) :
    (readNode (.object d'.entries) : Reading (Node δ)) = readNode (.object d.entries) := by
  obtain ⟨t, ht⟩ := Option.isSome_iff_exists.1 htype
  have ht' : d'.get? "type" = some t := by simp [hmoved, ht]
  refine readNode_congr ?_
  rcases ofMembers_typed t with ⟨cause, herror⟩ | ⟨tag, hok⟩
  · exact .inl ⟨cause, herror d ht, herror d' ht'⟩
  · refine .inr ⟨_, _, hok d ht, hok d' ht', rfl, by simp [hmoved], ?_⟩
    -- Beside the type and the children there is nothing left, and before there were no `props`.
    have hmovedRest : rest d'.entries = [] :=
      rest_congr (d := .empty) fun k ht hc hp => by simp [hmoved, ht, hc, hp]
    have hrest : (((d.erase "type").erase "children").erase "props") =
        (d.erase "type").erase "children" := by
      refine Dict.ext_get? fun k => ?_
      rw [Dict.get?_erase]
      by_cases hk : k = "props"
      · simp [hk, Dict.get?_erase, hnone]
      · simp [hk]
    have hall : rest d.entries = ((d.erase "type").erase "children").entries :=
      congrArg Dict.entries hrest
    simp only [properties, hnone, hmoved, if_true, hmovedRest, hall, addMissing_nil]
    rfl

theorem readNode_insert_children {w : Json}
    (h : (readChildren w : Reading (List (Child δ))) = readPart (d.get? "children")) :
    (readNode (.object (d.insert "children" w).entries) : Reading (Node δ)) =
      readNode (.object d.entries) := by
  have hget : ∀ k, (d.insert "children" w).get? k = if k = "children" then some w else d.get? k :=
    fun k => Dict.get?_insert ..
  refine readNode_congr ?_
  have hparts := ofMembers_parts fun k hc (_ : k ≠ "props") => (hget k).trans (if_neg hc)
  rcases hparts with herror | ⟨o, children, ho, hprops, ho', hchildren⟩
  · exact .inl herror
  · refine .inr ⟨o, _, ho, ho', rfl, ?_, ?_⟩
    · rcases hchildren with rfl | ⟨hold, rfl⟩
      · rfl
      · rw [hold, hget, if_pos rfl]
        exact h
    · simp only [properties, hprops, hget, if_neg (by decide : ¬ "props" = "children")]

theorem readNode_noProps (h : d.get? "props" = none ∨ d.get? "props" = some .null) :
    (readNode (.object (d.insert "props" (.object [])).entries) : Reading (Node δ)) =
      readNode (.object d.entries) := by
  have hget : ∀ k, (d.insert "props" (.object [])).get? k =
      if k = "props" then some (.object []) else d.get? k := fun k => Dict.get?_insert ..
  refine readNode_congr ?_
  have hparts := ofMembers_parts fun k (_ : k ≠ "children") hp => (hget k).trans (if_neg hp)
  rcases hparts with herror | ⟨o, children, ho, hprops, ho', hchildren⟩
  · exact .inl herror
  · refine .inr ⟨o, _, ho, ho', rfl, ?_, ?_⟩
    · rcases hchildren with rfl | ⟨hold, rfl⟩
      · rfl
      · rw [hold, hget, if_neg (by decide)]
    · rw [hget, if_pos rfl, properties, properties, hprops]
      rcases h with h | h <;> rw [h]

/-! ## Spellings of one tree -/

/-- Two values that are read alike in their place. -/
def ReadAlike (δ : Type) : Place → Json → Json → Prop
  | .tree, v, w => (readNode v : Reading (Node δ)) = readNode w
  | .child, v, w => (readChild v : Reading (Child δ)) = readChild w ∧
      (readChildren v : Reading (List (Child δ))) = readChildren w

theorem SameForm.readNode_eq (h : SameForm d d') :
    (readNode (.object d.entries) : Reading (Node δ)) = readNode (.object d'.entries) := by
  symm
  cases h with
  | shorthand htype hfirst _ => exact readNode_shorthand htype hfirst
  | props htype hnone hmoved => exact readNode_props htype hnone hmoved
  | noChildren h =>
    refine readNode_insert_children ?_
    rcases h with h | h <;> simp [h, readPart, readChildren, readItems]
  | noProps h => exact readNode_noProps h

/-- What is read alike as a tree is read alike everywhere. -/
theorem readAlike_object {ms ms' : Fields Json}
    (h : (readNode (.object ms) : Reading (Node δ)) = readNode (.object ms')) (place : Place) :
    ReadAlike δ place (.object ms) (.object ms') := by
  have hchild : (readChild (.object ms) : Reading (Child δ)) = readChild (.object ms') := by
    rw [readChild, readChild, h]
  cases place with
  | tree => exact h
  | child => exact ⟨hchild, by simp only [readChildren, hchild]⟩

/-- A list is read item by item, wherever it starts. -/
theorem readItems_congr {v w : Json}
    (h : (readChild v : Reading (Child δ)) = readChild w) (before after : List Json) (index : Nat) :
    (readItems index (before ++ v :: after) : Reading (List (Child δ))) =
      readItems index (before ++ w :: after) := by
  induction before generalizing index with
  | nil => rw [List.nil_append, List.nil_append, readItems, readItems, h]
  | cons u before ih => rw [List.cons_append, List.cons_append, readItems, readItems, ih]

theorem childrenKey_cases (d : Dict Json) : childrenKey d = "children" ∨
    d.get? "type" = none ∧
      ∃ v, shorthand? d.entries shorthands = some (childrenKey d, "children", v) := by
  unfold childrenKey
  split
  · rename_i key target v htype hfirst
    by_cases htarget : target = "children"
    · rw [if_pos htarget]
      exact .inr ⟨htype, v, htarget ▸ hfirst⟩
    · exact .inl (if_neg htarget)
  · exact .inl rfl

theorem readNode_children {v w : Json} (hv : d.get? (childrenKey d) = some v)
    (h : (readChildren v : Reading (List (Child δ))) = readChildren w) :
    (readNode (.object (d.insert (childrenKey d) w).entries) : Reading (Node δ)) =
      readNode (.object d.entries) := by
  rcases childrenKey_cases d with hkey | ⟨htype, v', hfirst⟩
  · rw [hkey] at hv ⊢
    exact readNode_insert_children (by rw [hv]; exact h.symm)
  · -- The children stand under the shorthand key, in both objects.
    obtain rfl : v' = v := Option.some.inj ((get?_of_shorthand? hfirst).symm.trans hv)
    generalize childrenKey d = key at hfirst hv
    obtain ⟨-, hne, -⟩ := shorthands_apart _ (mem_of_shorthand? hfirst)
    have htype' : (d.insert key w).get? "type" = none := by
      rw [Dict.get?_insert, if_neg hne.symm, htype]
    have herase : (d.insert key w).erase key = d.erase key := by
      refine Dict.ext_get? fun k => ?_
      by_cases hk : k = key <;> simp [Dict.get?_erase, Dict.get?_insert, hk]
    have hms : Fields.erase key (d.insert key w).entries = Fields.erase key d.entries :=
      congrArg Dict.entries herase
    refine readNode_congr (.inr ⟨_, _, ofMembers_shorthand htype hfirst,
      ofMembers_shorthand htype' (shorthand?_insert hfirst), ?_⟩)
    rw [ofShorthand, ofShorthand, hms, if_pos rfl, if_pos rfl]
    exact ⟨rfl, h.symm, rfl⟩

/-- **Spellings are read alike**, by induction on the changes of form. -/
theorem Respelled.readAlike {place : Place} {v w : Json} (h : Respelled place v w) :
    ReadAlike δ place v w := by
  induction h with
  | refl place v => cases place <;> simp [ReadAlike]
  | @symm place v w _ ih =>
    cases place with
    | tree => exact Eq.symm ih
    | child => exact ⟨ih.1.symm, ih.2.symm⟩
  | @trans place u v w _ _ ih ih' =>
    cases place with
    | tree => exact Eq.trans ih ih'
    | child => exact ⟨ih.1.trans ih'.1, ih.2.trans ih'.2⟩
  | form h => exact readAlike_object h.readNode_eq _
  | children hv _ ih => exact readAlike_object (readNode_children hv ih.2).symm _
  | item before after _ ih =>
    have hitems := readItems_congr ih.1 before after 0
    exact ⟨by simp only [readChild, hitems], by simp only [readChildren, hitems]⟩

/-- **A tree does not depend on how its nodes are spelled.** -/
theorem ofJson_respelled {v w : Json} (h : Respelled .tree v w) :
    (Node.ofJson v : Except Fault (Node δ)) = Node.ofJson w := by
  have hread : (readNode v : Reading (Node δ)) = readNode w := h.readAlike
  rw [Node.ofJson, Node.ofJson, hread]

/-! ## A page in two spellings -/

/-- A text with a class beside its shorthand. -/
def shortText : Dict Json := .ofList [("text", .text "Hi"), ("class", .text "p-1")]

/-- The text with its type. -/
def typedText : Dict Json :=
  .ofList [("type", .text "text"), ("children", .text "Hi"), ("class", .text "p-1")]

/-- The text with its type and with the class in its place. -/
def fullText : Dict Json :=
  .ofList [("type", .text "text"), ("children", .text "Hi"),
    ("props", .object [("class", .text "p-1")])]

/-- A page with nothing and a text. -/
def pageOf (text : Dict Json) : Dict Json :=
  .ofList [("page", .list [.null, .object text.entries]), ("size", .text "A5")]

/-- The page with its type. -/
def typedPageOf (text : Dict Json) : Dict Json :=
  .ofList [("type", .text "page"), ("children", .list [.null, .object text.entries]),
    ("size", .text "A5")]

theorem text_respelled (place : Place) :
    Respelled place (.object shortText.entries) (.object fullText.entries) := by
  have hshort : SameForm shortText typedText := @SameForm.shorthand _ "text" "children" _ rfl rfl rfl
  have hfull : SameForm typedText fullText := by
    refine .props rfl rfl fun k => ?_
    have htyped : typedText.entries =
        [("children", .text "Hi"), ("class", .text "p-1"), ("type", .text "text")] := rfl
    have hall : fullText.entries = [("children", .text "Hi"),
        ("props", .object [("class", .text "p-1")]), ("type", .text "text")] := rfl
    have hbeside : ((typedText.erase "type").erase "children").entries =
        [("class", .text "p-1")] := rfl
    simp only [Dict.get?, htyped, hall, hbeside, Fields.get?]
    by_cases hc : k = "children"
    · simp [hc]
    · by_cases hp : k = "props"
      · simp [hp]
      · by_cases ht : k = "type" <;> simp [hc, hp, ht]
  exact .trans (.form hshort) (.form hfull)

/-- A text within a page, and the page itself. -/
theorem page_respelled :
    Respelled .tree (.object (pageOf shortText).entries)
      (.object ((typedPageOf fullText).insert "props" (.object [])).entries) ∧
    (Node.ofJson (.object (pageOf shortText).entries) : Except Fault (Node Empty)) =
      Node.ofJson (.object ((typedPageOf fullText).insert "props" (.object [])).entries) := by
  have hpage : Respelled .tree (.object (pageOf shortText).entries)
      (.object (pageOf fullText).entries) :=
    .children rfl (.item [.null] [] (text_respelled .child))
  have htyped : SameForm (pageOf fullText) (typedPageOf fullText) :=
    @SameForm.shorthand _ "page" "children" _ rfl rfl rfl
  have hspelled := Respelled.trans hpage (.trans (.form htyped) (.form (.noProps (.inl rfl))))
  exact ⟨hspelled, ofJson_respelled hspelled⟩

end Markup

end Galley

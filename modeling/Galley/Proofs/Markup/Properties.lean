import Galley.Markup.Props
import Mathlib

/-!
# Properties field by field

A field has values of a type of its own, and properties have one for each field (`Props.value`).

**Theorem (`decode_eq_ok_iff`).** An object denotes properties just when no field of it is given
under two keys, and the value of each key that stands for a field is decoded to the value of the
field. A field that the object does not mention is as in no properties, and every other key is
found among the extra ones.

**Theorem (`decode_repeated`).** Where all values can be decoded, one fault is left: the classes,
which alone have several keys, are given under two of them.
-/

namespace Galley.Markup.Props

open Json (Decoded)

/-! ## Values of fields -/

/-- The type of the values of a field. -/
def Field.Value : Field → Type
  | .style => Style
  | .size => Option Page.Size
  | .orientation => Option Page.Orientation
  | .margin => Option Page.Margin
  | .src => Option Image.Source
  | .classes | .title | .author | .subject | .keywords | .creator | .producer | .href =>
    Option String

/-- The value of a field. -/
def value (p : Props) : (f : Field) → f.Value
  | .classes => p.classes
  | .style => p.style
  | .size => p.size
  | .orientation => p.orientation
  | .margin => p.margin
  | .title => p.title
  | .author => p.author
  | .subject => p.subject
  | .keywords => p.keywords
  | .creator => p.creator
  | .producer => p.producer
  | .src => p.src
  | .href => p.href

/-- Properties from a value for each field. -/
def ofValues (values : (f : Field) → f.Value) (extra : Dict Json) : Props :=
  ⟨values .classes, values .style, values .size, values .orientation, values .margin,
    values .title, values .author, values .subject, values .keywords, values .creator,
    values .producer, values .src, values .href, extra⟩

/-- The properties with a value in place of that of a field. -/
def set (p : Props) (f : Field) (x : f.Value) : Props :=
  ofValues (Function.update p.value f x) p.extra

/-- The value of a field that a JSON value denotes. -/
def Field.decode : (f : Field) → Json → Decoded f.Value
  | .style => Style.decode
  | .size => Json.decodeOption Page.Size.decode
  | .orientation => Json.decodeOption Page.Orientation.decode
  | .margin => Json.decodeOption Page.Margin.decode
  | .src => Json.decodeOption Image.Source.decode
  | .classes | .title | .author | .subject | .keywords | .creator | .producer | .href =>
    decodeText

variable {p r : Props}

@[simp] theorem value_ofValues (values : (f : Field) → f.Value) (extra : Dict Json) (f : Field) :
    (ofValues values extra).value f = values f := by
  cases f <;> rfl

@[simp] theorem ofValues_value (p : Props) : ofValues p.value p.extra = p := rfl

theorem ext_value (hvalue : ∀ f, p.value f = r.value f) (hextra : p.extra = r.extra) : p = r := by
  rw [← ofValues_value p, ← ofValues_value r, hextra, funext hvalue]

@[simp] theorem value_set_self (f : Field) (x : f.Value) : (p.set f x).value f = x := by
  rw [set, value_ofValues, Function.update_self]

@[simp] theorem extra_set (f : Field) (x : f.Value) : (p.set f x).extra = p.extra := rfl

theorem value_set_of_ne {f g : Field} (h : g ≠ f) (x : f.Value) :
    (p.set f x).value g = p.value g := by
  rw [set, value_ofValues, Function.update_of_ne h]

@[simp] theorem value_withExtra (p : Props) (extra : Dict Json) (f : Field) :
    ({ p with extra := extra } : Props).value f = p.value f := by
  cases f <;> rfl

theorem decodeField_eq (p : Props) (v : Json) (f : Field) :
    p.decodeField v f = (f.decode v).map (p.set f) := by
  cases f <;> rfl

/-! ## Keys of fields -/

/-- Two keys stand for one field. -/
def SameField (k k' : String) : Prop := ∃ f, Field.ofKey? k = some f ∧ Field.ofKey? k' = some f

instance (k k' : String) : Decidable (SameField k k') :=
  decidable_of_iff (∃ f ∈ Field.ofKey? k, Field.ofKey? k' = some f) Iff.rfl

theorem SameField.symm {k k' : String} : SameField k k' → SameField k' k :=
  fun ⟨f, hk, hk'⟩ => ⟨f, hk', hk⟩

theorem Field.ofKey?_eq_some {k : String} {f : Field} (h : Field.ofKey? k = some f) :
    f = .classes ∨ k = f.name := by
  unfold Field.ofKey? at h
  split at h <;> cases h <;> first | exact .inl rfl | exact .inr rfl

/-- Only the classes have several keys. -/
theorem eq_classes {k k' : String} {f : Field} (hne : k ≠ k') (hk : Field.ofKey? k = some f)
    (hk' : Field.ofKey? k' = some f) : f = .classes := by
  rcases Field.ofKey?_eq_some hk with hclasses | rfl
  · exact hclasses
  · rcases Field.ofKey?_eq_some hk' with hclasses | rfl
    · exact hclasses
    · exact absurd rfl hne

/-- An object gives a field, under any of its keys. -/
def Mentions (d : Dict Json) (f : Field) : Prop := ∃ k ∈ d.keys, Field.ofKey? k = some f

instance (d : Dict Json) (f : Field) : Decidable (Mentions d f) :=
  inferInstanceAs (Decidable (∃ k ∈ d.keys, Field.ofKey? k = some f))

/-- An object gives a field under two keys. -/
def Repeats (d : Dict Json) : Prop := ∃ k ∈ d.keys, ∃ k' ∈ d.keys, k ≠ k' ∧ SameField k k'

/-! ## Members one by one -/

theorem decodeMembers_extra {given : List Field} {k : String} (v : Json) {ms : Fields Json}
    (h : Field.ofKey? k = none) :
    decodeMembers given p ((k, v) :: ms) =
      decodeMembers given { p with extra := p.extra.insert k v } ms := by
  simp only [decodeMembers, h]

theorem decodeMembers_field {given : List Field} {k : String} (v : Json) {ms : Fields Json}
    {f : Field} (h : Field.ofKey? k = some f) :
    decodeMembers given p ((k, v) :: ms) =
      if f ∈ given then .error (.repeated f.name)
      else (f.decode v).bind fun x => decodeMembers (f :: given) (p.set f x) ms := by
  simp only [decodeMembers, h, decodeField_eq]
  cases f.decode v <;> rfl

/-- No two members give one field. -/
def Once (ms : Fields Json) : Prop := ms.Pairwise fun a b => ¬ SameField a.1 b.1

/-- What properties become by members, after some fields have been given. -/
structure Becomes (given : List Field) (p : Props) (ms : Fields Json) (r : Props) : Prop where
  once : Once ms
  fields : ∀ m ∈ ms, ∀ f, Field.ofKey? m.1 = some f →
    f ∉ given ∧ f.decode m.2 = .ok (r.value f)
  others : ∀ f, (∀ m ∈ ms, Field.ofKey? m.1 ≠ some f) → r.value f = p.value f
  extra : r.extra = p.extra.insertAll (ms.filter fun m => Field.ofKey? m.1 = none)

namespace Becomes

variable {given : List Field} {k : String} {v : Json} {ms : Fields Json}

theorem nil_iff : Becomes given p [] r ↔ p = r := by
  constructor
  · intro h
    exact (ext_value (fun f => h.others f (by simp)) h.extra).symm
  · rintro rfl
    exact ⟨.nil, by simp, by simp, rfl⟩

/-- An extra member. -/
theorem extra_iff (h : Field.ofKey? k = none) :
    Becomes given p ((k, v) :: ms) r ↔
      Becomes given { p with extra := p.extra.insert k v } ms r := by
  have hfirst : ∀ m : String × Json, ¬ SameField k m.1 := by
    rintro m ⟨f, hf, -⟩
    rw [h] at hf
    cases hf
  constructor
  · intro hb
    refine ⟨(List.pairwise_cons.1 hb.once).2, fun m hm => hb.fields m (List.mem_cons_of_mem _ hm),
      fun f hf => ?_, by simpa [h, Dict.insertAll] using hb.extra⟩
    rw [value_withExtra]
    exact hb.others f (by simpa [h] using hf)
  · intro hb
    refine ⟨List.pairwise_cons.2 ⟨fun m _ => hfirst m, hb.once⟩, ?_, fun f hf => ?_,
      by simpa [h, Dict.insertAll] using hb.extra⟩
    · simpa [h] using hb.fields
    · rw [hb.others f fun m hm => hf m (List.mem_cons_of_mem _ hm), value_withExtra]

/-- A member that gives a field, for the first time. -/
theorem field_iff {f : Field} (h : Field.ofKey? k = some f) :
    Becomes given p ((k, v) :: ms) r ↔ f ∉ given ∧ f.decode v = .ok (r.value f) ∧
      Becomes (f :: given) (p.set f (r.value f)) ms r := by
  have hfield : ∀ g, Field.ofKey? k = some g → g = f := fun g hg =>
    Option.some.inj (hg.symm.trans h)
  constructor
  · intro hb
    obtain ⟨hfirst, hrest⟩ := List.pairwise_cons.1 hb.once
    obtain ⟨hnew, hdecode⟩ := hb.fields (k, v) List.mem_cons_self f h
    refine ⟨hnew, hdecode, hrest, fun m hm g hg => ?_, fun g hg => ?_, by simpa [h] using hb.extra⟩
    · obtain ⟨hother, hdecodes⟩ := hb.fields m (List.mem_cons_of_mem _ hm) g hg
      refine ⟨fun hmem => ?_, hdecodes⟩
      rcases List.mem_cons.1 hmem with rfl | hmem
      · exact hfirst m hm ⟨g, h, hg⟩
      · exact hother hmem
    · by_cases hgf : g = f
      · rw [hgf, value_set_self]
      · rw [value_set_of_ne hgf]
        refine hb.others g fun m hm hmg => ?_
        rcases List.mem_cons.1 hm with rfl | hm
        · exact hgf (hfield g hmg)
        · exact hg m hm hmg
  · rintro ⟨hnew, hdecode, hb⟩
    have hapart : ∀ m ∈ ms, ∀ g, Field.ofKey? m.1 = some g → g ≠ f := by
      rintro m hm g hg rfl
      exact (hb.fields m hm g hg).1 List.mem_cons_self
    refine ⟨List.pairwise_cons.2 ⟨?_, hb.once⟩, fun m hm g hg => ?_, fun g hg => ?_,
      by simpa [h] using hb.extra⟩
    · rintro m hm ⟨g, hg, hmg⟩
      exact hapart m hm g hmg (hfield g hg)
    · rcases List.mem_cons.1 hm with rfl | hm
      · obtain rfl := hfield g hg
        exact ⟨hnew, hdecode⟩
      · obtain ⟨hother, hdecodes⟩ := hb.fields m hm g hg
        exact ⟨fun hmem => hother (List.mem_cons_of_mem _ hmem), hdecodes⟩
    · have hgf : g ≠ f := fun he => hg (k, v) List.mem_cons_self (he ▸ h)
      rw [hb.others g fun m hm => hg m (List.mem_cons_of_mem _ hm), value_set_of_ne hgf]

end Becomes

/-- **What members lead to**, by induction on them. -/
theorem decodeMembers_eq_ok_iff {given : List Field} {ms : Fields Json} :
    decodeMembers given p ms = .ok r ↔ Becomes given p ms r := by
  induction ms generalizing given p with
  | nil =>
    rw [Becomes.nil_iff]
    exact Except.ok.injEq p r ▸ Iff.rfl
  | cons m ms ih =>
    obtain ⟨k, v⟩ := m
    cases hk : Field.ofKey? k with
    | none => rw [decodeMembers_extra v hk, ih, Becomes.extra_iff hk]
    | some f =>
      rw [decodeMembers_field v hk, Becomes.field_iff hk]
      by_cases hnew : f ∈ given
      · simp [hnew]
      cases hdecode : f.decode v with
      | error mismatch => simp [hnew, Except.bind]
      | ok x =>
        simp only [hnew, if_false, Except.bind, not_false_eq_true, true_and, ih, Except.ok.injEq]
        constructor
        · intro hb
          have hx : x = r.value f := by
            rw [hb.others f fun m hm hf => (hb.fields m hm f hf).1 List.mem_cons_self,
              value_set_self]
          exact ⟨hx, hx ▸ hb⟩
        · rintro ⟨rfl, hb⟩
          exact hb

/-- **What can be wrong with members**: a value, or a field that is given again. -/
theorem decodeMembers_eq_error {given : List Field} {ms : Fields Json} (hascending : ms.Ascending)
    {mismatch : Json.Mismatch} (h : decodeMembers given p ms = .error mismatch) :
    (∃ m ∈ ms, ∃ f, Field.ofKey? m.1 = some f ∧ f.decode m.2 = .error mismatch) ∨
      ∃ f, mismatch = .repeated f.name ∧ ∃ m ∈ ms, Field.ofKey? m.1 = some f ∧
        (f ∈ given ∨ ∃ m' ∈ ms, Field.ofKey? m'.1 = some f ∧ m'.1 ≠ m.1) := by
  induction ms generalizing given p with
  | nil => cases h
  | cons m ms ih =>
    obtain ⟨k, v⟩ := m
    obtain ⟨hfirst, hrest⟩ := List.pairwise_cons.1 hascending
    cases hk : Field.ofKey? k with
    | none =>
      rw [decodeMembers_extra v hk] at h
      rcases ih hrest h with ⟨m, hm, hvalue⟩ | ⟨f, hf, m, hm, hmf, hgiven | ⟨m', hm', hother⟩⟩
      · exact .inl ⟨m, List.mem_cons_of_mem _ hm, hvalue⟩
      · exact .inr ⟨f, hf, m, List.mem_cons_of_mem _ hm, hmf, .inl hgiven⟩
      · exact .inr ⟨f, hf, m, List.mem_cons_of_mem _ hm, hmf,
          .inr ⟨m', List.mem_cons_of_mem _ hm', hother⟩⟩
    | some f =>
      rw [decodeMembers_field v hk] at h
      by_cases hgiven : f ∈ given
      · rw [if_pos hgiven] at h
        cases h
        exact .inr ⟨f, rfl, (k, v), List.mem_cons_self, hk, .inl hgiven⟩
      rw [if_neg hgiven] at h
      cases hdecode : f.decode v with
      | error found =>
        rw [hdecode] at h
        cases h
        exact .inl ⟨(k, v), List.mem_cons_self, f, hk, hdecode⟩
      | ok x =>
        rw [hdecode] at h
        rcases ih hrest h with ⟨m, hm, hvalue⟩ | ⟨g, hg, m, hm, hmg, hgiven | ⟨m', hm', hother⟩⟩
        · exact .inl ⟨m, List.mem_cons_of_mem _ hm, hvalue⟩
        · refine .inr ⟨g, hg, m, List.mem_cons_of_mem _ hm, hmg, ?_⟩
          rcases List.mem_cons.1 hgiven with rfl | hgiven
          · exact .inr ⟨(k, v), List.mem_cons_self, hk, (String.ne_of_lt (hfirst m hm))⟩
          · exact .inl hgiven
        · exact .inr ⟨g, hg, m, List.mem_cons_of_mem _ hm, hmg,
            .inr ⟨m', List.mem_cons_of_mem _ hm', hother⟩⟩

/-! ## Objects -/

variable {d : Dict Json}

/-- The properties that an object denotes. -/
structure Denotes (d : Dict Json) (r : Props) : Prop where
  once : ¬ Repeats d
  given : ∀ f k v, d.get? k = some v → Field.ofKey? k = some f → f.decode v = .ok (r.value f)
  absent : ∀ f, ¬ Mentions d f → r.value f = empty.value f
  extra : ∀ k, r.extra.get? k = if Field.ofKey? k = none then d.get? k else none

theorem once_entries : Once d.entries ↔ ¬ Repeats d := by
  have hsymm : Std.Symm fun a b : String × Json => ¬ SameField a.1 b.1 :=
    ⟨fun _ _ h hba => h hba.symm⟩
  constructor
  · rintro honce ⟨k, hk, k', hk', hne, hsame⟩
    obtain ⟨v, hv⟩ := Dict.mem_keys_iff.1 hk
    obtain ⟨v', hv'⟩ := Dict.mem_keys_iff.1 hk'
    have happart := honce.forall (Dict.mem_entries.2 hv) (Dict.mem_entries.2 hv')
      fun he => hne (congrArg Prod.fst he)
    exact happart hsame
  · intro h
    refine d.ascending.imp_of_mem fun {a b} ha hb hlt hsame => h ?_
    exact ⟨a.1, List.mem_map_of_mem ha, b.1, List.mem_map_of_mem hb, String.ne_of_lt hlt, hsame⟩

/-- **The properties of an object.** -/
theorem decode_eq_ok_iff : decode (.object d.entries) = .ok r ↔ Denotes d r := by
  have hmentions : ∀ f, ¬ Mentions d f ↔ ∀ m ∈ d.entries, Field.ofKey? m.1 ≠ some f := by
    intro f
    constructor
    · intro h m hm hmf
      exact h ⟨m.1, List.mem_map_of_mem hm, hmf⟩
    · rintro h ⟨k, hk, hf⟩
      obtain ⟨m, hm, rfl⟩ := List.mem_map.1 hk
      exact h m hm hf
  have hextra : r.extra = empty.extra.insertAll
      (d.entries.filter fun m => Field.ofKey? m.1 = none) ↔
      ∀ k, r.extra.get? k = if Field.ofKey? k = none then d.get? k else none := by
    have hget : ∀ k, (empty.extra.insertAll
        (d.entries.filter fun m => Field.ofKey? m.1 = none)).get? k =
        if Field.ofKey? k = none then d.get? k else none := by
      intro k
      have hnone : empty.extra.get? k = none := rfl
      rw [Dict.get?_insertAll, Fields.get?_reverse k (d.ascending.filter _),
        Fields.get?_filter fun k => decide (Field.ofKey? k = none), hnone, Option.or_none]
      simp [Dict.get?]
    constructor
    · intro h k
      rw [h, hget]
    · intro h
      exact Dict.ext_get? fun k => by rw [h, hget]
  show decodeMembers [] empty d.entries = .ok r ↔ _
  rw [decodeMembers_eq_ok_iff]
  constructor
  · intro hb
    refine ⟨once_entries.1 hb.once, fun f k v hv hk => ?_,
      fun f hf => hb.others f ((hmentions f).1 hf), hextra.1 hb.extra⟩
    exact (hb.fields (k, v) (Dict.mem_entries.2 hv) f hk).2
  · intro hd
    refine ⟨once_entries.2 hd.once, fun m hm f hf => ?_,
      fun f hf => hd.absent f ((hmentions f).2 hf), hextra.2 hd.extra⟩
    exact ⟨List.not_mem_nil, hd.given f m.1 m.2 (Dict.mem_entries.1 hm) hf⟩

/-- **The one fault besides wrong values.** -/
theorem decode_repeated (hrepeats : Repeats d)
    (hvalues : ∀ f k v, d.get? k = some v → Field.ofKey? k = some f → ∃ x, f.decode v = .ok x) :
    decode (.object d.entries) = .error (.repeated "class") := by
  cases hdecode : decode (.object d.entries) with
  | ok r => exact absurd hrepeats (decode_eq_ok_iff.1 hdecode).once
  | error mismatch =>
    rcases decodeMembers_eq_error d.ascending hdecode with
      ⟨m, hm, f, hf, hwrong⟩ | ⟨f, rfl, m, hm, hmf, hgiven | ⟨m', hm', hmf', hne⟩⟩
    · obtain ⟨x, hx⟩ := hvalues f m.1 m.2 (Dict.mem_entries.1 hm) hf
      rw [hwrong] at hx
      cases hx
    · exact absurd hgiven List.not_mem_nil
    · rw [eq_classes hne hmf' hmf]
      rfl

end Galley.Markup.Props

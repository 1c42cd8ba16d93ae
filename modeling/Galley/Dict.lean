/-!
# Sorted dictionaries

A `Fields` list pairs names with values. A `Dict` is such a list in strictly ascending order of
its names, so that two dictionaries with the same entries are equal (`Dict.ext_get?`).
-/

namespace Galley

/-- Named values, in some order. -/
abbrev Fields (α : Type) := List (String × α)

namespace Fields

variable {α : Type}

/-- The value of the first entry with the name. -/
def get? (k : String) : Fields α → Option α
  | [] => none
  | (k', v) :: es => if k = k' then some v else get? k es

/-- Put a value under a name: in place of the entry with that name, or before the first greater
name. -/
def insert (k : String) (v : α) : Fields α → Fields α
  | [] => [(k, v)]
  | (k', v') :: es =>
    if k < k' then (k, v) :: (k', v') :: es
    else if k = k' then (k, v) :: es
    else (k', v') :: insert k v es

/-- The list without the entries of that name. -/
def erase (k : String) (es : Fields α) : Fields α :=
  es.filter fun e => e.1 ≠ k

/-- The names, strictly ascending. -/
def Ascending (es : Fields α) : Prop := es.Pairwise fun a b => a.1 < b.1

theorem mem_insert {k : String} {v : α} {es : Fields α} {e : String × α}
    (h : e ∈ insert k v es) : e = (k, v) ∨ e ∈ es := by
  induction es with
  | nil => simpa [insert] using h
  | cons e' es ih =>
    unfold insert at h
    split at h
    · simpa using h
    · split at h
      · rcases List.mem_cons.1 h with h | h
        · exact .inl h
        · exact .inr (List.mem_cons_of_mem _ h)
      · rcases List.mem_cons.1 h with h | h
        · exact .inr (h ▸ List.mem_cons_self)
        · exact (ih h).imp id (List.mem_cons_of_mem _)

theorem ascending_insert (k : String) (v : α) {es : Fields α} (h : Ascending es) :
    Ascending (insert k v es) := by
  induction es with
  | nil => simp [insert, Ascending]
  | cons e es ih =>
    have ⟨first, rest⟩ := List.pairwise_cons.1 h
    unfold insert
    split
    · rename_i lt
      refine List.pairwise_cons.2 ⟨fun e' he' => ?_, h⟩
      rcases List.mem_cons.1 he' with rfl | he'
      · exact lt
      · exact String.lt_trans lt (first e' he')
    · rename_i not_lt
      split
      · rename_i eq
        exact List.pairwise_cons.2 ⟨fun e' he' => eq ▸ first e' he', rest⟩
      · rename_i ne
        refine List.pairwise_cons.2 ⟨fun e' he' => ?_, ih rest⟩
        rcases mem_insert he' with rfl | he'
        · exact Decidable.byContradiction fun gt =>
            ne (String.le_antisymm (String.not_lt.1 gt) (String.not_lt.1 not_lt))
        · exact first e' he'

theorem ascending_erase (k : String) {es : Fields α} (h : Ascending es) :
    Ascending (erase k es) :=
  List.Pairwise.filter _ h

theorem get?_insert (k k' : String) (v : α) (es : Fields α) :
    get? k' (insert k v es) = if k' = k then some v else get? k' es := by
  induction es with
  | nil => simp [insert, get?]
  | cons e es ih =>
    unfold insert
    split
    · simp [get?]
    · split
      · rename_i eq
        by_cases h : k' = k <;> simp [get?, h, ← eq]
      · rename_i ne
        by_cases h : k' = e.1
        · simp [get?, h, Ne.symm ne]
        · simp [get?, h, ih]

theorem get?_erase (k k' : String) (es : Fields α) :
    get? k' (erase k es) = if k' = k then none else get? k' es := by
  induction es with
  | nil => simp [erase, get?]
  | cons e es ih =>
    by_cases he : e.1 = k
    · have : erase k (e :: es) = erase k es := by simp [erase, he]
      rw [this, ih]
      by_cases h : k' = k <;> simp [get?, h, he]
    · have : erase k (e :: es) = e :: erase k es := by simp [erase, he]
      rw [this]
      by_cases h : k' = e.1
      · subst h; simp [get?, he]
      · simp [get?, h, ih]

theorem get?_filter (p : String → Bool) (k : String) (es : Fields α) :
    get? k (es.filter fun e => p e.1) = if p k then get? k es else none := by
  induction es with
  | nil => simp [get?]
  | cons e es ih =>
    by_cases he : p e.1 = true <;> by_cases h : k = e.1
    · simp [get?, h, he]
    · simp [get?, h, he, ih]
    · simpa [h, he] using ih
    · simp [get?, h, he, ih]

theorem get?_append (k : String) (as bs : Fields α) :
    get? k (as ++ bs) = (get? k as).or (get? k bs) := by
  induction as with
  | nil => rfl
  | cons a as ih => by_cases h : k = a.1 <;> simp [get?, h, ih]

theorem get?_eq_none_iff {k : String} {es : Fields α} : get? k es = none ↔ ∀ e ∈ es, e.1 ≠ k := by
  induction es with
  | nil => simp [get?]
  | cons e es ih =>
    by_cases h : k = e.1
    · simp [get?, h]
    · simp [get?, h, ih, Ne.symm h]

theorem mem_of_get? {k : String} {v : α} {es : Fields α} (h : get? k es = some v) : (k, v) ∈ es := by
  induction es with
  | nil => simp [get?] at h
  | cons e es ih =>
    by_cases hk : k = e.1
    · have hv : e.2 = v := by simpa [get?, hk] using h
      simp [hk, ← hv]
    · exact List.mem_cons_of_mem _ (ih (by simpa [get?, hk] using h))

theorem get?_of_mem {k : String} {v : α} {es : Fields α} (hascending : Ascending es)
    (h : (k, v) ∈ es) : get? k es = some v := by
  induction es with
  | nil => exact absurd h List.not_mem_nil
  | cons e es ih =>
    have ⟨first, rest⟩ := List.pairwise_cons.1 hascending
    rcases List.mem_cons.1 h with rfl | h
    · simp [get?]
    · have ne : k ≠ e.1 := (String.ne_of_lt (first (k, v) h)).symm
      simpa [get?, ne] using ih rest h

/-- The value at a name of a list that starts later is none. -/
theorem get?_eq_none_of_lt {k : String} {es : Fields α} (h : ∀ e ∈ es, k < e.1) :
    get? k es = none := by
  induction es with
  | nil => rfl
  | cons e es ih =>
    have lt := h e List.mem_cons_self
    have ne : k ≠ e.1 := fun eq => String.lt_irrefl _ (eq ▸ lt)
    simpa [get?, ne] using ih fun e' he' => h e' (List.mem_cons_of_mem _ he')

/-- The order of an ascending list does not matter for what is found. -/
theorem get?_reverse (k : String) {es : Fields α} (h : Ascending es) :
    get? k es.reverse = get? k es := by
  induction es with
  | nil => rfl
  | cons e es ih =>
    have ⟨first, rest⟩ := List.pairwise_cons.1 h
    rw [List.reverse_cons, get?_append, ih rest]
    by_cases eq : k = e.1
    · have none_after : get? k es = none :=
        get?_eq_none_of_lt fun e' he' => eq ▸ first e' he'
      rw [none_after]
      simp [get?, eq]
    · simp [get?, eq]

theorem eq_of_get?_eq {as bs : Fields α} (ha : Ascending as) (hb : Ascending bs)
    (h : ∀ k, get? k as = get? k bs) : as = bs := by
  induction as generalizing bs with
  | nil =>
    cases bs with
    | nil => rfl
    | cons b bs => simpa [get?] using h b.1
  | cons a as ih =>
    cases bs with
    | nil => simpa [get?] using h a.1
    | cons b bs =>
      have ⟨fa, ra⟩ := List.pairwise_cons.1 ha
      have ⟨fb, rb⟩ := List.pairwise_cons.1 hb
      have key : a.1 = b.1 := by
        refine Decidable.byContradiction fun ne => ?_
        by_cases lt : a.1 < b.1
        · have := h a.1
          rw [@get?_eq_none_of_lt α a.1 (b :: bs)] at this
          · simp [get?] at this
          · intro e he
            rcases List.mem_cons.1 he with rfl | he
            · exact lt
            · exact String.lt_trans lt (fb e he)
        · have gt : b.1 < a.1 := Decidable.byContradiction fun gt =>
            ne (String.le_antisymm (String.not_lt.1 gt) (String.not_lt.1 lt))
          have := h b.1
          rw [@get?_eq_none_of_lt α b.1 (a :: as)] at this
          · simp [get?] at this
          · intro e he
            rcases List.mem_cons.1 he with rfl | he
            · exact gt
            · exact String.lt_trans gt (fa e he)
      have value : a.2 = b.2 := by
        have := h a.1
        simpa [get?, key] using this
      have tail : as = bs := ih ra rb fun k => by
        by_cases hk : k = a.1
        · rw [get?_eq_none_of_lt (fun e he => hk ▸ fa e he),
            get?_eq_none_of_lt (fun e he => by rw [hk, key]; exact fb e he)]
        · have := h k
          simpa [get?, hk, key ▸ hk] using this
      rw [tail, Prod.ext key value]

end Fields

/-- A dictionary: entries in strictly ascending order of their names. -/
structure Dict (α : Type) where
  entries : Fields α
  ascending : entries.Ascending

namespace Dict

variable {α : Type}

/-- The dictionary without entries. -/
def empty : Dict α := ⟨[], List.Pairwise.nil⟩

instance : Inhabited (Dict α) := ⟨empty⟩

/-- The value under a name. -/
def get? (d : Dict α) (k : String) : Option α := d.entries.get? k

/-- Is there a value under the name? -/
def contains (d : Dict α) (k : String) : Bool := (d.get? k).isSome

/-- The dictionary with a value put under a name. -/
def insert (d : Dict α) (k : String) (v : α) : Dict α :=
  ⟨d.entries.insert k v, Fields.ascending_insert k v d.ascending⟩

/-- The dictionary without the name. -/
def erase (d : Dict α) (k : String) : Dict α :=
  ⟨d.entries.erase k, Fields.ascending_erase k d.ascending⟩

/-- The number of entries. -/
def size (d : Dict α) : Nat := d.entries.length

/-- The names, ascending. -/
def keys (d : Dict α) : List String := d.entries.map (·.1)

/-- The dictionary with every entry of a list put into it, a later entry over an earlier one. -/
def insertAll (d : Dict α) (es : Fields α) : Dict α :=
  es.foldl (fun d e => d.insert e.1 e.2) d

/-- The entries of a list, the last of each name. -/
def ofList (es : Fields α) : Dict α := empty.insertAll es

/-- The entries of both dictionaries, those of the second over those of the first. -/
def merge (base above : Dict α) : Dict α := base.insertAll above.entries

@[simp] theorem get?_empty (k : String) : (empty : Dict α).get? k = none := rfl

theorem get?_insert (d : Dict α) (k k' : String) (v : α) :
    (d.insert k v).get? k' = if k' = k then some v else d.get? k' :=
  Fields.get?_insert k k' v d.entries

theorem get?_erase (d : Dict α) (k k' : String) :
    (d.erase k).get? k' = if k' = k then none else d.get? k' :=
  Fields.get?_erase k k' d.entries

theorem mem_entries {d : Dict α} {k : String} {v : α} :
    (k, v) ∈ d.entries ↔ d.get? k = some v :=
  ⟨Fields.get?_of_mem d.ascending, Fields.mem_of_get?⟩

theorem mem_keys {d : Dict α} {k : String} : k ∈ d.keys ↔ d.contains k = true := by
  rw [contains, Option.isSome_iff_ne_none, get?, Ne, Fields.get?_eq_none_iff, keys, List.mem_map]
  simp

theorem mem_keys_iff {d : Dict α} {k : String} :
    k ∈ d.keys ↔ ∃ v, d.get? k = some v := by
  rw [mem_keys, contains, Option.isSome_iff_exists]

theorem get?_insertAll (d : Dict α) (es : Fields α) (k : String) :
    (d.insertAll es).get? k = (Fields.get? k es.reverse).or (d.get? k) := by
  induction es generalizing d with
  | nil => rfl
  | cons e es ih =>
    have step : (d.insertAll (e :: es)) = (d.insert e.1 e.2).insertAll es := rfl
    rw [step, ih, get?_insert, List.reverse_cons, Fields.get?_append]
    by_cases h : k = e.1 <;> simp [Fields.get?, h]

/-- The second dictionary wins under every name that it has. -/
theorem get?_merge (base above : Dict α) (k : String) :
    (base.merge above).get? k = (above.get? k).or (base.get? k) := by
  rw [merge, get?_insertAll, Fields.get?_reverse k above.ascending]
  rfl

theorem get?_ofList (es : Fields α) (k : String) :
    (ofList es).get? k = Fields.get? k es.reverse := by
  rw [ofList, get?_insertAll, get?_empty, Option.or_none]

/-- Two dictionaries that agree under every name are equal. -/
theorem ext_get? {a b : Dict α} (h : ∀ k, a.get? k = b.get? k) : a = b := by
  obtain ⟨as, ha⟩ := a
  obtain ⟨bs, hb⟩ := b
  obtain rfl : as = bs := Fields.eq_of_get?_eq ha hb h
  rfl

end Dict

end Galley

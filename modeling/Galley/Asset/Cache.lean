/-!
# Write-once caches

A cache keeps the first value that is put under a key, until it is cleared.
-/

namespace Galley.Asset

/-- Values under keys, in the order in which they were put. -/
structure Cache (κ α : Type) where
  entries : List (κ × α)
  nodup : (entries.map (·.1)).Nodup

namespace Cache

variable {κ α : Type} [DecidableEq κ]

/-- The cache without values. -/
def empty : Cache κ α := ⟨[], .nil⟩

/-- The value under a key. -/
def get? (c : Cache κ α) (k : κ) : Option α := c.entries.lookup k

theorem not_mem_keys {c : Cache κ α} {k : κ} (h : c.get? k = none) :
    k ∉ c.entries.map (·.1) := by
  intro mem
  obtain ⟨e, he, rfl⟩ := List.mem_map.1 mem
  simpa using List.lookup_eq_none_iff.1 h e he

/-- The cache with a value under a key, unless there is one already. -/
def put (c : Cache κ α) (k : κ) (v : α) : Cache κ α :=
  match h : c.get? k with
  | some _ => c
  | none => ⟨c.entries ++ [(k, v)], by
      rw [List.map_append]
      exact List.nodup_append.2 ⟨c.nodup, by simp, by
        intro a ha b hb eq
        simp only [List.map_cons, List.map_nil, List.mem_singleton] at hb
        exact not_mem_keys h (hb ▸ eq ▸ ha)⟩⟩

/-- The number of keys that have a value. -/
def size (c : Cache κ α) : Nat := c.entries.length

/-- Is there no key that has a value? -/
def isEmpty (c : Cache κ α) : Bool := c.entries.isEmpty

@[simp] theorem get?_empty (k : κ) : (empty : Cache κ α).get? k = none := rfl

/-- The first value under a key stays. -/
theorem get?_put (c : Cache κ α) (k k' : κ) (v : α) :
    (c.put k v).get? k' = (c.get? k').or (if k' = k then some v else none) := by
  unfold put
  split
  · rename_i w h
    by_cases eq : k' = k
    · simp [eq, h]
    · simp [eq]
  · rename_i h
    rw [get?, List.lookup_append, get?]
    by_cases eq : k' = k
    · simp [eq]
    · have ne : (k' == k) = false := by simpa using eq
      simp [List.lookup_cons, eq, ne]

/-- Under a key is what was there, or the value that is put there. -/
theorem eq_some_of_get?_put {c : Cache κ α} {k k' : κ} {v w : α}
    (h : (c.put k v).get? k' = some w) : c.get? k' = some w ∨ k' = k ∧ v = w := by
  rw [get?_put, Option.or_eq_some_iff] at h
  rcases h with hold | ⟨-, hnew⟩
  · exact .inl hold
  · by_cases hk : k' = k
    · exact .inr ⟨hk, by simpa [hk] using hnew⟩
    · simp [hk] at hnew

end Cache

end Galley.Asset

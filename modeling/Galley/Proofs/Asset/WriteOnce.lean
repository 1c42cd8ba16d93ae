import Galley.Asset.Handles
import Mathlib

/-!
# Caches are written once

A run (`Handles.Run`) creates caches, clones handles and calls through them, in any order. The
handles that come from one creation (`Run.source`) lead to one cache, and only the calls through
them reach it (`Run.cache_eq`).

What a cache has follows from the calls since the last clear (`Cache.get?_after`): under a key the
first value that was put there, and as many keys as were put.

**Theorem (`handles_writeOnce`).** After any run, and through any handle, a cache answers as a map
that is written once: by the calls that were made through clones of the handle.
-/

namespace Galley.Asset

variable {κ α : Type} {m n : Nat}

namespace Cache

/-! ## What calls put -/

/-- Does the call empty the cache? -/
def Call.clears : Call κ α → Bool
  | clear => true
  | put _ _ | get _ | size | isEmpty => false

/-- The calls after the last clear, or all calls if there is none. -/
def sinceClear (calls : List (Call κ α)) : List (Call κ α) :=
  calls.rtakeWhile fun c => !c.clears

/-- The value is the first one that calls put under the key. -/
def FirstPut (calls : List (Call κ α)) (k : κ) (v : α) : Prop :=
  ∃ before after, calls = before ++ .put k v :: after ∧ ∀ w, .put k w ∉ before

/-- The answers to the next call are those of a map that is written once. -/
structure WriteOnce (past : List (Call κ α)) (answer : (c : Call κ α) → c.Answer) : Prop where
  /-- Under a key is the first value that was put there since the last clear, if any. -/
  get : ∀ k v, answer (.get k) = some v ↔ FirstPut (sinceClear past) k v
  /-- Putting a value is answered with the first one under the key, which it may be itself. -/
  put : ∀ k v, FirstPut (α := α) (sinceClear (past ++ [.put k v])) k (answer (.put k v))
  /-- Every key under which a value was put since the last clear counts once. -/
  size : answer .size = {k | ∃ v, .put k v ∈ sinceClear past}.ncard
  isEmpty : answer .isEmpty = true ↔ answer .size = (0 : Nat)

theorem sinceClear_concat (calls : List (Call κ α)) (c : Call κ α) :
    sinceClear (calls ++ [c]) = if c.clears then [] else sinceClear calls ++ [c] := by
  cases h : c.clears <;> simp [sinceClear, h]

variable [DecidableEq κ]

/-- The value that a call puts under a key. -/
def Call.value? (k : κ) : Call κ α → Option α
  | put k' v => if k = k' then some v else none
  | get _ | clear | size | isEmpty => none

theorem Call.value?_eq_some_iff {c : Call κ α} {k : κ} {v : α} :
    c.value? k = some v ↔ c = .put k v := by
  cases c <;> simp [value?, eq_comm]

theorem Call.value?_eq_none_iff {c : Call κ α} {k : κ} :
    c.value? k = none ↔ ∀ v, c ≠ .put k v := by
  simp only [Option.eq_none_iff_forall_ne_some, ne_eq, value?_eq_some_iff]

theorem findSome?_value? {calls : List (Call κ α)} {k : κ} {v : α} :
    calls.findSome? (·.value? k) = some v ↔ FirstPut calls k v := by
  rw [List.findSome?_eq_some_iff]
  constructor
  · rintro ⟨before, c, after, rfl, hc, hbefore⟩
    obtain rfl := Call.value?_eq_some_iff.1 hc
    exact ⟨before, after, rfl, fun w hw => Call.value?_eq_none_iff.1 (hbefore _ hw) w rfl⟩
  · rintro ⟨before, after, rfl, hbefore⟩
    refine ⟨before, .put k v, after, rfl, Call.value?_eq_some_iff.2 rfl, fun c hc => ?_⟩
    exact Call.value?_eq_none_iff.2 fun w hw => hbefore w (hw ▸ hc)

/-- A key has a first value if it has any. -/
theorem exists_firstPut_iff {calls : List (Call κ α)} {k : κ} :
    (∃ v, FirstPut calls k v) ↔ ∃ v, .put k v ∈ calls := by
  constructor
  · rintro ⟨v, before, after, rfl, -⟩
    exact ⟨v, by simp⟩
  · rintro ⟨v, hmem⟩
    have hsome : (calls.findSome? (·.value? k)).isSome = true :=
      List.findSome?_isSome_iff.2 ⟨.put k v, hmem, by simp [Call.value?]⟩
    obtain ⟨w, hw⟩ := Option.isSome_iff_exists.1 hsome
    exact ⟨w, findSome?_value?.1 hw⟩

/-! ## The cache after calls -/

/-- The cache after calls, at first without values. -/
def after (calls : List (Call κ α)) : Cache κ α :=
  calls.foldl (fun c call => (c.answer call).2) empty

theorem after_concat (calls : List (Call κ α)) (c : Call κ α) :
    after (calls ++ [c]) = ((after calls).answer c).2 := by
  simp [after]

/-- What one call does to a key. -/
theorem get?_answer (c : Cache κ α) (call : Call κ α) (k : κ) :
    (c.answer call).2.get? k =
      if call.clears then none else (c.get? k).or (call.value? k) := by
  cases call with
  | put k' v => simp [answer, Call.clears, Call.value?, get?_put]
  | get | clear | size | isEmpty => simp [answer, Call.clears, Call.value?]

/-- **Under a key is the first value since the last clear.** -/
theorem get?_after (calls : List (Call κ α)) (k : κ) :
    (after calls).get? k = (sinceClear calls).findSome? (·.value? k) := by
  induction calls using List.reverseRecOn with
  | nil => rfl
  | append_singleton calls c ih =>
    rw [after_concat, get?_answer, sinceClear_concat, ih]
    split
    · rfl
    · simp [List.findSome?_append]

theorem mem_keys_iff {c : Cache κ α} {k : κ} :
    k ∈ c.entries.map (·.1) ↔ ∃ v, c.get? k = some v := by
  constructor
  · intro hmem
    refine Option.isSome_iff_exists.1 (Option.isSome_iff_ne_none.2 fun hnone => ?_)
    exact not_mem_keys hnone hmem
  · rintro ⟨v, hget⟩
    obtain ⟨before, after, hentries, -⟩ := List.lookup_eq_some_iff.1 hget
    simp [hentries]

/-- **The size is the number of keys that have a value.** -/
theorem size_eq_ncard (c : Cache κ α) : c.size = {k | ∃ v, c.get? k = some v}.ncard := by
  have hkeys : {k | ∃ v, c.get? k = some v} = ((c.entries.map (·.1)).toFinset : Set κ) := by
    ext k
    rw [List.coe_toFinset, Set.mem_ofPred_eq, Set.mem_ofPred_eq, mem_keys_iff]
  rw [hkeys, Set.ncard_coe_finset, List.toFinset_card_of_nodup c.nodup, List.length_map, size]

/-- **A cache is written once.** -/
theorem writeOnce_after (calls : List (Call κ α)) :
    WriteOnce calls fun c => ((after calls).answer c).1 where
  get k v := by
    show (after calls).get? k = some v ↔ _
    rw [get?_after, findSome?_value?]
  put k v := by
    show FirstPut _ k ((((after calls).put k v).get? k).getD v)
    rw [← findSome?_value?, ← get?_after, after_concat]
    show ((after calls).put k v).get? k = _
    rw [get?_put]
    cases (after calls).get? k <;> simp
  size := by
    show (after calls).size = _
    simp only [size_eq_ncard, get?_after, findSome?_value?, exists_firstPut_iff]
  isEmpty := by
    show (after calls).entries.isEmpty = true ↔ (after calls).entries.length = 0
    rw [List.isEmpty_iff_length_eq_zero]

end Cache

/-! ## Runs of handles -/

namespace Handles

/-- Creations, clones and calls, in some order, after which there are so many caches and so many
handles. -/
inductive Run (κ α : Type) : Nat → Nat → Type
  | start : Run κ α 0 0
  | create {m n : Nat} (R : Run κ α m n) : Run κ α (m + 1) (n + 1)
  | clone {m n : Nat} (R : Run κ α m n) (h : Fin n) : Run κ α m (n + 1)
  | call {m n : Nat} (R : Run κ α m n) (h : Fin n) (c : Cache.Call κ α) : Run κ α m n

namespace Run

/-- The handle that came with a cache when it was created, of which a given handle is a clone, or a
clone of a clone. -/
def source : {m n : Nat} → Run κ α m n → Fin n → Fin n
  | _, _, start => id
  | _, _, create R => Fin.lastCases (Fin.last _) fun h => (R.source h).castSucc
  | _, _, clone R h => Fin.lastCases (R.source h).castSucc fun h' => (R.source h').castSucc
  | _, _, call R _ _ => R.source

/-- All calls, in order, with their handles. -/
def log : {m n : Nat} → Run κ α m n → List (Fin n × Cache.Call κ α)
  | _, _, start => []
  | _, _, create R | _, _, clone R _ => R.log.map fun e => (e.1.castSucc, e.2)
  | _, _, call R h c => R.log ++ [(h, c)]

/-- The calls through clones of a handle. -/
def calls (R : Run κ α m n) (h : Fin n) : List (Cache.Call κ α) :=
  (R.log.filter fun e => R.source e.1 = R.source h).map (·.2)

section Source

variable (R : Run κ α m n) (p h : Fin n)

@[simp] theorem source_create_last : R.create.source (Fin.last n) = Fin.last n := by
  simp [source]

@[simp] theorem source_create_castSucc :
    R.create.source h.castSucc = (R.source h).castSucc := by
  simp [source]

@[simp] theorem source_clone_last :
    (R.clone p).source (Fin.last n) = (R.source p).castSucc := by
  simp [source]

@[simp] theorem source_clone_castSucc :
    (R.clone p).source h.castSucc = (R.source h).castSucc := by
  simp [source]

theorem calls_create_last : R.create.calls (Fin.last n) = [] := by
  simp [calls, log, List.filter_map]

theorem calls_create_castSucc : R.create.calls h.castSucc = R.calls h := by
  simp [calls, log, List.filter_map, Function.comp_def]

theorem calls_clone_last : (R.clone p).calls (Fin.last n) = R.calls p := by
  simp [calls, log, List.filter_map, Function.comp_def]

theorem calls_clone_castSucc : (R.clone p).calls h.castSucc = R.calls h := by
  simp [calls, log, List.filter_map, Function.comp_def]

theorem calls_call (c : Cache.Call κ α) :
    (R.call p c).calls h = R.calls h ++ if R.source p = R.source h then [c] else [] := by
  show ((R.log ++ [(p, c)]).filter fun e => R.source e.1 = R.source h).map (·.2) = _
  rw [List.filter_append, List.map_append, List.filter_singleton]
  by_cases hp : R.source p = R.source h <;> simp [calls, hp]

end Source

variable [DecidableEq κ]

/-- The caches after a run. -/
def handles : {m n : Nat} → Run κ α m n → Handles κ α m n
  | _, _, start => .empty
  | _, _, create R => R.handles.create
  | _, _, clone R h => R.handles.clone h
  | _, _, call R h c => (R.handles.call h c).2

/-! ## Where handles lead -/

/-- **Handles lead to one place if they come from one creation**, and only then. -/
theorem place_eq_iff (R : Run κ α m n) (h h' : Fin n) :
    R.handles.place h = R.handles.place h' ↔ R.source h = R.source h' := by
  induction R with
  | start => exact h.elim0
  | create R ih =>
    cases h using Fin.lastCases <;> cases h' using Fin.lastCases <;>
      simp [handles, ih, (Fin.castSucc_lt_last _).ne']
  | clone R p ih =>
    cases h using Fin.lastCases <;> cases h' using Fin.lastCases <;> simp [handles, ih]
  | call R p c ih => exact ih h h'

/-- **A handle leads to what the calls through its clones have left.** -/
theorem cache_eq (R : Run κ α m n) (h : Fin n) : R.handles.cache h = Cache.after (R.calls h) := by
  induction R with
  | start => exact h.elim0
  | create R ih =>
    cases h using Fin.lastCases with
    | last => rw [calls_create_last]; exact cache_create_last _
    | cast h => rw [calls_create_castSucc, ← ih]; exact cache_create_castSucc _ _
  | clone R p ih =>
    cases h using Fin.lastCases with
    | last => rw [calls_clone_last, ← ih]; exact cache_clone_last _ _
    | cast h => rw [calls_clone_castSucc, ← ih]; exact cache_clone_castSucc _ _ _
  | call R p c ih =>
    rw [calls_call]
    show (R.handles.call p c).2.cache h = _
    rw [cache_call]
    -- The call reaches this cache exactly if it is made through a clone of the handle.
    by_cases hp : R.source p = R.source h
    · have hcache : R.handles.cache p = R.handles.cache h := by
        rw [Handles.cache, (place_eq_iff R p h).2 hp, Handles.cache]
      rw [if_pos ((place_eq_iff R p h).2 hp), if_pos hp, Cache.after_concat, ← ih h, hcache]
    · rw [if_neg (mt (place_eq_iff R p h).1 hp), if_neg hp, List.append_nil, ih h]

end Run

end Handles

/-- **After any run, and through any handle, a cache answers as a map that is written once**: by
the calls that were made through clones of the handle. -/
theorem handles_writeOnce [DecidableEq κ] (R : Handles.Run κ α m n) (h : Fin n) :
    Cache.WriteOnce (R.calls h) fun c => (R.handles.call h c).1 := by
  show Cache.WriteOnce (R.calls h) fun c => ((R.handles.cache h).answer c).1
  rw [R.cache_eq]
  exact Cache.writeOnce_after _

/-- The second handle is a clone of the first one: of what is put through either, the first value
is found through both. The third handle leads to a cache of its own. -/
example :
    let R : Handles.Run String Nat 2 3 := (Handles.Run.start.create.clone 0).create
      |>.call 1 (.put "a" 1) |>.call 0 (.put "a" 2) |>.call 2 .clear |>.call 0 (.put "b" 3)
    (R.handles.call 0 (.get "a")).1 = some (1 : Nat) ∧ (R.handles.call 1 .size).1 = (2 : Nat) ∧
      (R.handles.call 2 .isEmpty).1 = true :=
  ⟨rfl, rfl, rfl⟩

end Galley.Asset

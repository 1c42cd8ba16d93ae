import Galley.Asset.Cache

/-!
# Handles of caches

A cache is used through handles, by calls (`Cache.Call`). A handle does not have a cache of its own:
it says in which place the cache is, and a clone of it says the same. So what is put through one of
them is found through the other. A call is one atomic step.
-/

namespace Galley.Asset

variable {κ α : Type} {m n : Nat}

namespace Cache

/-- A call of a cache. -/
inductive Call (κ α : Type) where
  | put (k : κ) (v : α)
  | get (k : κ)
  | clear
  | size
  | isEmpty

/-- What a call is answered with. Putting a value is answered with the value that is kept. -/
def Call.Answer : Call κ α → Type
  | put _ _ => α
  | get _ => Option α
  | clear => Unit
  | size => Nat
  | isEmpty => Bool

/-- The answer to a call, with the cache after it. -/
def answer [DecidableEq κ] (c : Cache κ α) : (call : Call κ α) → call.Answer × Cache κ α
  | .put k v =>
    let kept := c.put k v
    ((kept.get? k).getD v, kept)
  | .get k => (c.get? k, c)
  | .clear => ((), empty)
  | .size => (c.size, c)
  | .isEmpty => (c.isEmpty, c)

end Cache

/-- Caches in their places, and handles with the places to which they lead. -/
structure Handles (κ α : Type) (m n : Nat) where
  caches : Vector (Cache κ α) m
  places : Vector Nat n
  valid : ∀ p ∈ places, p < m

namespace Handles

/-- No caches yet. -/
def empty : Handles κ α 0 0 := ⟨#v[], #v[], by simp⟩

/-- The place to which a handle leads. -/
def place (s : Handles κ α m n) (h : Fin n) : Fin m :=
  ⟨s.places[h], s.valid _ (Vector.getElem_mem h.isLt)⟩

/-- The cache to which a handle leads. -/
def cache (s : Handles κ α m n) (h : Fin n) : Cache κ α := s.caches.get (s.place h)

/-- One more cache, without values, and a handle of it. -/
def create (s : Handles κ α m n) : Handles κ α (m + 1) (n + 1) where
  caches := s.caches.push .empty
  places := s.places.push m
  valid p hp := by
    rcases Vector.mem_push.1 hp with hold | rfl
    · exact Nat.lt_succ_of_lt (s.valid p hold)
    · exact Nat.lt_succ_self p

/-- One more handle, which leads where a given one does. -/
def clone (s : Handles κ α m n) (h : Fin n) : Handles κ α m (n + 1) where
  caches := s.caches
  places := s.places.push (s.place h)
  valid p hp := by
    rcases Vector.mem_push.1 hp with hold | rfl
    · exact s.valid p hold
    · exact (s.place h).isLt

/-- The answer to a call through a handle, with the caches after it. -/
def call [DecidableEq κ] (s : Handles κ α m n) (h : Fin n) (c : Cache.Call κ α) :
    c.Answer × Handles κ α m n :=
  let (answer, cache) := (s.cache h).answer c
  (answer, { s with caches := s.caches.set (s.place h) cache })

variable (s : Handles κ α m n)

@[simp] theorem place_create_last : s.create.place (Fin.last n) = Fin.last m :=
  Fin.ext Vector.getElem_push_last

@[simp] theorem place_create_castSucc (h : Fin n) :
    s.create.place h.castSucc = (s.place h).castSucc :=
  Fin.ext (Vector.getElem_push_lt h.isLt)

@[simp] theorem place_clone_last (p : Fin n) : (s.clone p).place (Fin.last n) = s.place p :=
  Fin.ext Vector.getElem_push_last

@[simp] theorem place_clone_castSucc (p h : Fin n) :
    (s.clone p).place h.castSucc = s.place h :=
  Fin.ext (Vector.getElem_push_lt h.isLt)

/-- A new cache is empty. -/
theorem cache_create_last : s.create.cache (Fin.last n) = .empty := by
  rw [cache, place_create_last]
  exact Vector.getElem_push_last

theorem cache_create_castSucc (h : Fin n) : s.create.cache h.castSucc = s.cache h := by
  rw [cache, place_create_castSucc]
  exact Vector.getElem_push_lt (s.place h).isLt

/-- A clone leads to the same cache. -/
theorem cache_clone_last (p : Fin n) : (s.clone p).cache (Fin.last n) = s.cache p := by
  rw [cache, place_clone_last]
  rfl

theorem cache_clone_castSucc (p h : Fin n) : (s.clone p).cache h.castSucc = s.cache h := by
  rw [cache, place_clone_castSucc]
  rfl

/-- A call changes the cache in the place of its handle, and no other. -/
theorem cache_call [DecidableEq κ] (p h : Fin n) (c : Cache.Call κ α) :
    (s.call p c).2.cache h =
      if s.place p = s.place h then ((s.cache p).answer c).2 else s.cache h := by
  show (s.caches.set (s.place p) ((s.cache p).answer c).2)[s.place h] = _
  rw [Fin.getElem_fin, Vector.getElem_set]
  simp only [Fin.ext_iff]
  rfl

end Handles

end Galley.Asset

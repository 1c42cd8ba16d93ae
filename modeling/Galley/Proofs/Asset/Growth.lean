import Galley.Proofs.Asset.Interleaving

/-!
# Stores that only grow

A cache that is written once only grows, and every new value in it is there for a reason
(`Cache.Grows`). A store grows with its caches, while its registered fonts stay (`growth`).

The value of a plan over a store (`Plan.against`) is its result if the store never changed.
-/

namespace Galley.Asset

open Font (Face)

variable {α β κ : Type} {A : Answers}

/-! ## Caches that grow -/

/-- A cache keeps its values and gets justified ones only. -/
structure Cache.Grows [DecidableEq κ] (J : κ → α → Prop) (c d : Cache κ α) : Prop where
  kept : ∀ {k v}, c.get? k = some v → d.get? k = some v
  new : ∀ {k v}, d.get? k = some v → c.get? k = some v ∨ J k v

namespace Cache.Grows

variable [DecidableEq κ] {J : κ → α → Prop} {c d e : Cache κ α}

theorem refl (c : Cache κ α) : c.Grows J c := ⟨id, .inl⟩

theorem trans (hcd : c.Grows J d) (hde : d.Grows J e) : c.Grows J e :=
  ⟨fun h => hde.kept (hcd.kept h), fun h => (hde.new h).elim hcd.new .inr⟩

theorem get?_eq_none (h : c.Grows J d) {k : κ} (hd : d.get? k = none) : c.get? k = none := by
  cases hc : c.get? k with
  | none => rfl
  | some v =>
    rw [h.kept hc] at hd
    cases hd

theorem justified (h : c.Grows J d) {k : κ} {v : α} (hc : c.get? k = none)
    (hd : d.get? k = some v) : J k v := by
  refine (h.new hd).resolve_left fun hold => ?_
  rw [hc] at hold
  cases hold

theorem put (c : Cache κ α) {k : κ} {v : α} (h : J k v) : c.Grows J (c.put k v) := by
  refine ⟨fun {k' v'} hget => ?_, fun {k' v'} hget => ?_⟩
  · rw [get?_put, hget]
    rfl
  · rcases eq_some_of_get?_put hget with hold | ⟨rfl, rfl⟩
    · exact .inl hold
    · exact .inr h

end Cache.Grows

/-- A store keeps what it has, and its caches get justified values only. -/
structure Store.Grows (J : Face → LoadedFont → Prop) (K : String → LoadedImage → Prop)
    (s t : Store) : Prop where
  fonts : s.fonts.Grows J t.fonts
  images : s.images.Grows K t.images
  registry : t.registry = s.registry

/-- Growth as a change that may happen between questions. -/
def growth (J : Face → LoadedFont → Prop) (K : String → LoadedImage → Prop) : Change where
  Holds := Store.Grows J K
  refl _ := ⟨.refl _, .refl _, rfl⟩
  trans h h' := ⟨h.fonts.trans h'.fonts, h.images.trans h'.images, h'.registry.trans h.registry⟩

/-! ## Values over a store -/

/-- The result of a plan over a store that does not change. -/
def Plan.against (A : Answers) (s : Store) : Plan α → α
  | .done a => a
  | .ask r next => (next (A.answer s r)).against A s

theorem Plan.against_bind (s : Store) (p : Plan α) (f : α → Plan β) :
    (p.bind f).against A s = (f (p.against A s)).against A s := by
  induction p with
  | done a => rfl
  | ask r next ih => exact ih _

theorem Task.against_bind {st : Store} {t : Task α} {a : α} (h : t.outcome.against A st = .ok a)
    (f : α → Task β) : (t >>= f).outcome.against A st = (f a).outcome.against A st := by
  show (t.outcome.bind (ExceptT.bindCont f)).against A st = _
  rw [Plan.against_bind, h]
  rfl

end Galley.Asset

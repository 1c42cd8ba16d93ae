import Galley.Proofs.Asset.History
import Galley.Proofs.Font.Registration

/-!
# Registrations in a history

Fonts are registered in between all that happens. The registry is that of the registrations,
whatever else happens (`History.registry`), and a lookup is answered by those before it
(`History.lookup?_of_asked_at`).
-/

namespace Galley.Asset

open Font (Descriptor Face Registration)

variable {α : Type}

/-- What is registered in the event. -/
def Event.registration? : Event → Option Registration
  | registered family d => some (family, d)
  | asked .. | cleared _ => none

/-- What is registered among events, first one first. -/
def registrations (es : List Event) : List Registration := es.filterMap Event.registration?

section Registry

variable {c d q : Shared α} {e : Event} {es : List Event} {i k : Nat}

theorem Happens.registry (h : Happens c e d) :
    d.store.registry = c.store.registry.registerAll e.registration?.toList := by
  cases h with
  | registered family descriptor => rfl
  | cleared shelf => cases shelf <;> rfl
  | @asked i A ps st r next h => cases r <;> rfl

/-- **The registry is that of the registrations**, whatever else happens. -/
theorem History.registry (h : History c es q) :
    q.store.registry = c.store.registry.registerAll (registrations es) := by
  induction h with
  | nil c => rfl
  | @cons c d q e es h _ ih =>
    rw [ih, h.registry, ← Font.Registry.registerAll_append]
    cases hregistration : e.registration? <;> simp [registrations, hregistration]

/-- A lookup is answered by the registrations before it. -/
theorem History.lookup?_of_asked_at (h : History c es q) {face : Face} {found : Option Descriptor}
    (hk : es[k]? = some (.asked i (.registered face) found)) :
    (c.store.registry.registerAll (registrations (es.take k))).lookup? face = found := by
  obtain ⟨d, hbefore, hafter⟩ := h.split k
  obtain ⟨hlt, hget⟩ := List.getElem?_eq_some_iff.1 hk
  rw [List.drop_eq_getElem_cons hlt, hget] at hafter
  rw [← hbefore.registry]
  cases hafter with
  | cons hasked _ =>
    cases hasked
    rfl

end Registry

end Galley.Asset

import Galley.Asset.Cache
import Galley.Asset.Plan

/-!
# Stores and worlds

A store keeps the fonts and images that were loaded, and the fonts that are registered. Together
with a world outside it answers the questions of plans; `Plan.run` performs a plan without
interruption.
-/

namespace Galley.Asset

/-- What is kept between plans. -/
structure Store where
  /-- Fonts by their face. -/
  fonts : Cache Font.Face LoadedFont
  /-- Images by their address. -/
  images : Cache String LoadedImage
  registry : Font.Registry

/-- The store without anything. -/
def Store.empty : Store := ⟨.empty, .empty, .empty⟩

/-- The store with empty caches. Registered fonts stay. -/
def Store.clear (s : Store) : Store := { s with fonts := .empty, images := .empty }

/-- The store with one more registered font. -/
def Store.register (s : Store) (family : String) (d : Font.Descriptor) : Store :=
  { s with registry := s.registry.register family d }

/-- The world outside, whose answers may depend on a state of its own. -/
structure World (σ : Type) where
  fetch : String → Mode → σ → Reply × σ
  produce : Image.Producer → σ → Except Report Image.Source × σ

/-- The answer to a question, with the store and the state of the world after it. -/
def World.answer {σ : Type} (w : World σ) : (r : Request) → Store × σ → r.Answer × (Store × σ)
  | .cachedFont face, (s, x) => (s.fonts.get? face, (s, x))
  | .keepFont font, (s, x) =>
    let fonts := s.fonts.put font.face font
    ((fonts.get? font.face).getD font, ({ s with fonts := fonts }, x))
  | .registered face, (s, x) => (s.registry.lookup? face, (s, x))
  | .cachedImage url, (s, x) => (s.images.get? url, (s, x))
  | .keepImage url image, (s, x) =>
    let images := s.images.put url image
    ((images.get? url).getD image, ({ s with images := images }, x))
  | .fetch url mode, (s, x) =>
    let (reply, x) := w.fetch url mode x
    (reply, (s, x))
  | .produce producer, (s, x) =>
    let (source, x) := w.produce producer x
    (source, (s, x))

/-- The result of a plan, with the store and the state of the world after it. -/
def Plan.run {α σ : Type} (w : World σ) : Plan α → Store × σ → α × (Store × σ)
  | .done a, state => (a, state)
  | .ask r next, state =>
    let (answer, state) := w.answer r state
    (next answer).run w state

namespace Plan

variable {α β σ : Type} (w : World σ)

@[simp] theorem run_pure (a : α) (state : Store × σ) : run w (pure a) state = (a, state) := rfl

theorem run_question (r : Request) (state : Store × σ) :
    run w (question r) state = w.answer r state := rfl

/-- A plan that follows another one starts where that one ended. -/
theorem run_bind (p : Plan α) (f : α → Plan β) (state : Store × σ) :
    run w (p >>= f) state = run w (f (run w p state).1) (run w p state).2 := by
  induction p generalizing state with
  | done a => rfl
  | ask r next ih => exact ih _ _

end Plan

end Galley.Asset

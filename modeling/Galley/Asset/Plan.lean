import Galley.Asset.Loaded
import Galley.Fault
import Galley.Font.Registry
import Galley.Image.Source

/-!
# Plans

Fonts and images are fetched step by step. A plan asks one question after another, of a store (its
caches and registered fonts) or of the world outside (a network, producers of sources), and goes
on with the answer. Every question is one atomic step, so a plan says what may happen between two
of them.
-/

namespace Galley.Asset

/-- A question of a plan. -/
inductive Request where
  | cachedFont (face : Font.Face)
  | keepFont (font : LoadedFont)
  | registered (face : Font.Face)
  | cachedImage (url : String)
  | keepImage (url : String) (image : LoadedImage)
  | fetch (url : String) (mode : Mode)
  | produce (producer : Image.Producer)

/-- What a question is answered with. Keeping a value is answered with the value that is kept. -/
def Request.Answer : Request → Type
  | cachedFont _ => Option LoadedFont
  | keepFont _ => LoadedFont
  | registered _ => Option Font.Descriptor
  | cachedImage _ => Option LoadedImage
  | keepImage _ _ => LoadedImage
  | fetch _ _ => Reply
  | produce _ => Except Report Image.Source

/-- A result, or a question with what follows from each answer. -/
inductive Plan (α : Type) where
  | done (a : α)
  | ask (r : Request) (next : r.Answer → Plan α)

namespace Plan

variable {α β σ : Type}

/-- One plan after another. -/
def bind : Plan α → (α → Plan β) → Plan β
  | done a, f => f a
  | ask r next, f => ask r fun answer => (next answer).bind f

instance : Monad Plan where
  pure := done
  bind := bind

/-- The plan that asks one question. -/
def question (r : Request) : Plan r.Answer := ask r done

/-- The results of plans, one after another. -/
def inTurn : List (Plan α) → Plan (List α)
  | [] => pure []
  | p :: ps => do
    let a ← p
    let as ← inTurn ps
    pure (a :: as)

end Plan

/-- A plan that may end in a fault. -/
abbrev Task (α : Type) := ExceptT Fault Plan α

/-- The task that asks one question. -/
def Task.ask (r : Request) : Task r.Answer := ExceptT.lift (Plan.question r)

/-- The plan of a task, which ends in its outcome. -/
def Task.outcome {α : Type} (t : Task α) : Plan (Except Fault α) := t.run

end Galley.Asset

import Galley.Press.Engine
import Galley.Typeset.Tree

/-!
# Rendering

A renderer has settings and engines under names. To render a tree is to typeset it, to fetch what
the document needs, and to hand both to an engine. A name without an engine is noticed first, and
a fault of the tree before anything is fetched.
-/

namespace Galley.Press

open Asset (Plan)
open Markup (Node Rendering)

variable {δ : Type}

/-- The document of a tree with its fonts and images. -/
def prepare (render : Rendering δ) (s : Settings) (root : Node δ) :
    Plan (Except Fault Context) :=
  match Typeset.typeset render s.typesetting root with
  | .error fault => pure (.error fault)
  | .ok document => gather s.fetching document

/-- Settings, and engines under names. -/
structure Renderer where
  settings : Settings
  engines : Dict Engine

namespace Renderer

/-- The renderer with an engine under a name, in place of an earlier one. -/
def register (r : Renderer) (name : String) (engine : Engine) : Renderer :=
  { r with engines := r.engines.insert name engine }

/-- What an engine makes of a tree. -/
def render (r : Renderer) (rendering : Rendering δ) (root : Node δ) (engine : String) :
    Plan (Except Fault Bytes) :=
  match r.engines.get? engine with
  | none => pure (.error (.unknownEngine engine r.engines.keys))
  | some engine => do
    let context ← prepare rendering r.settings root
    pure (context.bind fun c => (engine c).mapError Failure.fault)

end Renderer

end Galley.Press

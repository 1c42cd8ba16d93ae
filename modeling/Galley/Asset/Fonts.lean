import Galley.Asset.Plan
import Galley.Bytes.Utf8
import Galley.Font.Catalog
import Galley.Font.Stylesheet
import Galley.Font.Usage
import Galley.Settings.Basic

/-!
# Fetching fonts

A face comes from the cache; if it is not there, from the font that is registered for it; if its
family has none, from the public catalog, through the first font file of its stylesheet. What is
found is kept under the face.
-/

namespace Galley.Asset

open Font (Descriptor Face Slant Usage)

/-- The body that an address of a face gives. -/
def fetchFont (face : Face) (url : String) : Task Bytes := do
  match ← Task.ask (.fetch url .default) with
  | .error message => throw (.font face (some url) (.unreachable message))
  | .ok response =>
    if response.isSuccess then pure response.body
    else throw (.font face (some url) (.status response.status))

/-- The font of a face with a file that is not empty. -/
def fontOf (face : Face) (url : Option String) (data : Bytes) (cause : Fault.FontCause) :
    Task LoadedFont :=
  if data.isEmpty then throw (.font face url cause) else pure ⟨face, data, url⟩

/-- The font that is registered for a face. -/
def loadRegistered (face : Face) (d : Descriptor) : Task LoadedFont :=
  match d.origin with
  | .data data => fontOf face none data .emptyRegistration
  | .url url => do
    let data ← fetchFont face url
    fontOf face (some url) data .emptyRegistration

/-- The font that the catalog has for a face of a family as it is written. -/
def loadFromCatalog (catalogUrl family : String) (face : Face) : Task LoadedFont := do
  let name := Font.catalogName family
  let cssUrl := Font.stylesheetUrl catalogUrl name face.weight face.slant
  let css ← fetchFont face cssUrl
  match Font.firstFontUrl? (String.ofList (Bytes.toTextLossy css)) with
  | none => throw (.font face (some cssUrl) (.noFile name))
  | some url => do
    let data ← fetchFont face url
    fontOf face (some url) data .emptyFile

/-- The font of a family in any spelling, with a weight and a slant. -/
def resolveFont (s : Settings.Fetching) (family : String) (weight : Nat) (slant : Slant) :
    Task LoadedFont := do
  let face := Face.of family weight slant
  match ← Task.ask (.cachedFont face) with
  | some font => pure font
  | none => do
    let font ←
      match ← Task.ask (.registered face) with
      | some d => loadRegistered face d
      | none => loadFromCatalog s.catalogUrl family face
    Task.ask (.keepFont font)

/-- A family as it is written, with a weight and a slant. -/
structure FontRequest where
  family : String
  weight : Nat
  slant : Slant
  deriving DecidableEq

/-- The requests for the faces of usages, in order. -/
def usageRequests (us : List Usage) : List FontRequest :=
  us.flatMap fun u => u.faces.map fun face => ⟨u.name, face.weight, face.slant⟩

/-- The requests of a document: those of its usages, or one for the family of documents that name
none. -/
def fontRequests (s : Settings.Fetching) (us : List Usage) : List FontRequest :=
  match usageRequests us with
  | [] => [⟨s.family, Font.defaultWeight, .normal⟩]
  | rs => rs

/-- The successes among outcomes. -/
def successes {α : Type} : List (Except Fault α) → List α
  | [] => []
  | .ok a :: outcomes => a :: successes outcomes
  | .error _ :: outcomes => successes outcomes

/-- The successes among outcomes; the first fault if there is none. -/
def settle {α : Type} (outcomes : List (Except Fault α)) : Except Fault (List α) :=
  match successes outcomes, outcomes with
  | [], .error fault :: _ => .error fault
  | as, _ => .ok as

/-- The font of a request. -/
def FontRequest.resolve (s : Settings.Fetching) (r : FontRequest) : Task LoadedFont :=
  resolveFont s r.family r.weight r.slant

/-- The fonts of a document. -/
def loadFonts (s : Settings.Fetching) (us : List Usage) :
    Plan (Except Fault (List LoadedFont)) := do
  let outcomes ← Plan.inTurn ((fontRequests s us).map fun r => (r.resolve s).outcome)
  pure (settle outcomes)

end Galley.Asset

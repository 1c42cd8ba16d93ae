import Galley.Asset.Plan
import Galley.Document.Basic
import Galley.Image.DataUri
import Galley.Settings.Basic

/-!
# Fetching images

An address is fetched if it is one of the network, and kept under the address; a data URI and
bytes have the image in them; a producer is asked, and its source resolved in turn, up to a limit.
Whatever the source, the image has the id that it was asked for under.
-/

namespace Galley.Asset

open Image (Source)

/-- Is it an address of the network? -/
def isRemote (url : String) : Bool :=
  let s := Text.lowerAscii (Text.trimStart url.toList)
  Text.startsWith "http://" s || Text.startsWith "https://" s

/-- The image at an address of the network that is not in the cache. -/
def fetchImage (id url : String) : Task LoadedImage := do
  match ← Task.ask (.fetch url .preferCache) with
  | .error message => throw (.imageUnreachable url message)
  | .ok response =>
    if response.isSuccess then
      match Image.Format.detect? response.body with
      | none => throw (.unknownFormat url)
      | some format => Task.ask (.keepImage url (.of id format response.body))
    else throw (.imageStatus url response.status)

/-- The image at an address. -/
def resolveUrl (id url : String) : Task LoadedImage := do
  if isRemote url then
    let image ←
      match ← Task.ask (.cachedImage url) with
      | some image => pure image
      | none => fetchImage id url
    pure { image with id := id }
  else throw (.localFile url)

/-- The image of bytes. -/
def resolveBytes (id : String) (bytes : Bytes) : Except Fault LoadedImage :=
  match Image.Format.detect? bytes with
  | some format => .ok (.of id format bytes)
  | none => .error (.unknownBytes id)

/-- The image of a data URI. -/
def resolveDataUri (id uri : String) : Except Fault LoadedImage :=
  (Image.DataUri.decode id uri).map fun (format, data) => .of id format data

/-- The image of a source, with a number of producers that may still be asked. -/
def resolveSource (limit : Nat) (id : String) : Nat → Source → Task LoadedImage
  | _, .url url => resolveUrl id url
  | _, .dataUri uri => ExceptT.mk (pure (resolveDataUri id uri))
  | _, .bytes bytes => ExceptT.mk (pure (resolveBytes id bytes))
  | 0, .deferred _ => throw (.endlessSource id limit)
  | n + 1, .deferred producer => do
    match ← Task.ask (.produce producer) with
    | .error report => throw (.reported report)
    | .ok source => resolveSource limit id n source

/-- The image of a source under an id. -/
def resolveImage (s : Settings.Fetching) (id : String) (source : Source) : Task LoadedImage :=
  resolveSource s.producerLimit id s.producerLimit source

/-- The images among the outcomes for ids. -/
def collectImages (outcomes : List (String × Except Fault LoadedImage)) : Dict LoadedImage :=
  .ofList (outcomes.filterMap fun (id, outcome) => outcome.toOption.map (id, ·))

/-- The images of a document that resolve, by their ids. -/
def loadImages (s : Settings.Fetching) (us : List Document.ImageUsage) :
    Plan (Dict LoadedImage) := do
  let outcomes ← Plan.inTurn (us.map fun u => (resolveImage s u.id u.source).outcome)
  pure (collectImages ((us.map (·.id)).zip outcomes))

end Galley.Asset

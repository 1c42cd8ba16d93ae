import Galley.Json.Reader
import Galley.Page.Decode
import Galley.Settings.Basic

/-!
# Settings as data

Settings are read from an object, or from a list with the values in their order. What is not given
has its default; members that are not known do not count.
-/

namespace Galley.Settings

namespace Typesetting

/-- The settings as data. -/
def toJson (s : Typesetting) : Json :=
  .ofMembers [
    ("max_composite_depth", .nat s.componentLimit),
    ("max_tree_depth", .nat s.depthLimit),
    ("default_page_size", s.pageSize.toJson)]

/-- The settings with values that may be given. -/
def given (componentLimit depthLimit : Option Nat) (pageSize : Option Page.Dimensions) :
    Typesetting :=
  ⟨componentLimit.getD default.componentLimit, depthLimit.getD default.depthLimit,
    pageSize.getD default.pageSize⟩

/-- The settings that a value denotes. -/
def decode : Json → Json.Decoded Typesetting
  | .object ms => do
    let pageSize ← Json.decodeMember "default_page_size" Page.Dimensions.decode ms
    let componentLimit ← Json.decodeMember "max_composite_depth" Json.decodeSize ms
    let depthLimit ← Json.decodeMember "max_tree_depth" Json.decodeSize ms
    .ok (given componentLimit depthLimit pageSize)
  | .list items => do
    let componentLimit ← Json.decodeItem 0 Json.decodeSize items
    let depthLimit ← Json.decodeItem 1 Json.decodeSize items
    let pageSize ← Json.decodeItem 2 Page.Dimensions.decode items
    Json.decodeEnd 3 items
    .ok (given componentLimit depthLimit pageSize)
  | v => .error (.kind v "struct ConvertOptions")

end Typesetting

namespace Fetching

/-- The settings as data. -/
def toJson (s : Fetching) : Json :=
  .ofMembers [
    ("user_agent", .text s.userAgent),
    ("font_catalog_url", .text s.catalogUrl),
    ("default_font_family", .text s.family),
    ("max_deferred_depth", .nat s.producerLimit)]

/-- The settings with values that may be given. -/
def given (userAgent catalogUrl family : Option String) (producerLimit : Option Nat) : Fetching :=
  ⟨userAgent.getD default.userAgent, catalogUrl.getD default.catalogUrl,
    family.getD default.family, producerLimit.getD default.producerLimit⟩

/-- The settings that a value denotes. -/
def decode : Json → Json.Decoded Fetching
  | .object ms => do
    let family ← Json.decodeMember "default_font_family" Json.decodeText ms
    let catalogUrl ← Json.decodeMember "font_catalog_url" Json.decodeText ms
    let producerLimit ← Json.decodeMember "max_deferred_depth" Json.decodeSize ms
    let userAgent ← Json.decodeMember "user_agent" Json.decodeText ms
    .ok (given userAgent catalogUrl family producerLimit)
  | .list items => do
    let userAgent ← Json.decodeItem 0 Json.decodeText items
    let catalogUrl ← Json.decodeItem 1 Json.decodeText items
    let family ← Json.decodeItem 2 Json.decodeText items
    let producerLimit ← Json.decodeItem 3 Json.decodeSize items
    Json.decodeEnd 4 items
    .ok (given userAgent catalogUrl family producerLimit)
  | v => .error (.kind v "struct AssetOptions")

end Fetching

/-- The settings as data. -/
def toJson (s : Settings) : Json :=
  .ofMembers [("convert", s.typesetting.toJson), ("assets", s.fetching.toJson)]

/-- The settings that a value denotes. -/
def decode : Json → Json.Decoded Settings
  | .object ms => do
    let fetching ← Json.decodeMember "assets" Fetching.decode ms
    let typesetting ← Json.decodeMember "convert" Typesetting.decode ms
    .ok ⟨typesetting.getD .default, fetching.getD .default⟩
  | .list items => do
    let typesetting ← Json.decodeItem 0 Typesetting.decode items
    let fetching ← Json.decodeItem 1 Fetching.decode items
    Json.decodeEnd 2 items
    .ok ⟨typesetting.getD .default, fetching.getD .default⟩
  | v => .error (.kind v "a map")

/-- How a settings text is read: repeated members are noticed where they count, and a number may
be too large, or a text broken, where it does not count. Null is no value of any setting, so a
broken text is refused where it counts. -/
def rules (text : List Char) : Json.Reader.Rules := ⟨text.length + 1, true, true, true⟩

/-- The settings that a text denotes. -/
def read (text : String) : Except Fault Settings :=
  match Json.Reader.readWith (rules text.toList) text.toList with
  | .error _ => .error .configuration
  | .ok v =>
    match decode v with
    | .error _ => .error .configuration
    | .ok s => .ok s

/-- May the character stand in a request header? -/
def Fetching.isHeaderChar (c : Char) : Bool := (0x20 ≤ c.toNat && c.toNat ≠ 0x7f) || c = '\t'

/-- The settings for fetching from a network, whose requests carry the user agent. -/
def Fetching.network (s : Fetching) : Except Fault Fetching :=
  if s.userAgent.toList.all isHeaderChar then .ok s else .error .badUserAgent

end Galley.Settings

import Galley.Bytes.Base64
import Galley.Fault
import Galley.Image.Format
import Galley.Text.Blank

/-!
# Images in data URIs

A data URI has the form `data:image/<subtype>;base64,<payload>`. Blanks may stand anywhere in the
payload.
-/

namespace Galley.Image.DataUri

/-- May the character stand in a subtype? -/
def isSubtypeChar (c : Char) : Bool := c.isAlphanum || c = '.' || c = '+' || c = '-'

/-- May the character stand in a payload? -/
def isPayloadChar (c : Char) : Bool :=
  c.isAlphanum || c = '+' || c = '/' || c = '=' || Text.isBlank c

/-- The subtype and the payload of a data URI, if it has their form. -/
def split? (uri : List Char) : Option (List Char × List Char) := do
  let s ← Text.afterPrefix? "data:image/" uri
  let subtype := s.takeWhile isSubtypeChar
  let payload ← Text.afterPrefix? ";base64," (s.dropWhile isSubtypeChar)
  if !subtype.isEmpty && payload.all isPayloadChar then some (subtype, payload) else none

/-- The format and the bytes of a data URI, for an image with an id. -/
def decode (id uri : String) : Except Fault (Format × Bytes) :=
  match split? uri.toList with
  | none => .error (.malformedDataUri id)
  | some (subtype, payload) =>
    match Format.ofSubtype? (String.ofList subtype) with
    | none => .error (.unknownSubtype id (String.ofList subtype))
    | some format =>
      match Bytes.Base64.decode? (payload.filter fun c => !Text.isBlank c) with
      | none => .error (.undecodableDataUri id)
      | some [] => .error (.emptyDataUri id)
      | some bytes => .ok (format, bytes)

end Galley.Image.DataUri

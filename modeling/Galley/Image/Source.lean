import Galley.Bytes.Digest
import Galley.Bytes.Utf8
import Galley.Json.Decode
import Galley.Text.Cut

/-!
# Image sources

An image comes from an address, a data URI, bytes, or a producer that is asked for a source when
the image is needed. Every source has an identity: equal addresses, data URIs and bytes share one,
and so does a producer with itself.
-/

namespace Galley.Image

/-- A producer of sources, known by name. A producer that was handed out by another one has the
name of the first one and a stage above zero. -/
structure Producer where
  name : String
  stage : Nat
  deriving DecidableEq

/-- The identity of a producer. -/
def Producer.identity (p : Producer) : String :=
  if p.stage = 0 then "deferred:" ++ p.name
  else "stage:" ++ Decimal.natural p.stage ++ ":" ++ p.name

/-- Where an image comes from. -/
inductive Source where
  | url (url : String)
  | dataUri (uri : String)
  | bytes (bytes : Bytes)
  | deferred (producer : Producer)
  deriving DecidableEq

namespace Source

/-- The source that a text stands for. -/
def ofText (s : String) : Source :=
  if Text.startsWith "data:" s.toList then .dataUri s else .url s

/-- The first eight bytes of the digest, in hexadecimal, after a tag. -/
def digestName (bs : Bytes) : String :=
  "img_" ++ String.ofList (Bytes.hex ((Bytes.Digest.sha256 bs).take 8))

/-- What a source is known by. -/
def identity : Source → String
  | .url s => digestName (Bytes.ofText "url:" ++ Bytes.ofText s)
  | .dataUri uri => digestName (Bytes.ofText "uri:" ++ Bytes.ofText uri)
  | .bytes bs => digestName (Bytes.ofText "bytes:" ++ bs)
  | .deferred p => p.identity

/-- The source as data. -/
def toJson : Source → Json
  | .url s | .dataUri s => .text s
  | .bytes bs => .ofMembers [("bytes", .nat bs.length)]
  | .deferred _ => .text "deferred"

/-- The source in a short form for people. -/
def display : Source → String
  | .url s => "Url(" ++ Text.quoted s ++ ")"
  | .dataUri uri =>
    "DataUri(" ++ Text.quoted (String.ofList (uri.toList.take 32 ++ [Char.ofNat 0x2026])) ++ ")"
  | .bytes bs => "Bytes(" ++ Decimal.natural bs.length ++ " bytes)"
  | .deferred _ => "Deferred"

/-- A text, or a list of bytes. -/
def decode : Json → Json.Decoded Source
  | .text s => .ok (.ofText s)
  | .list items => (items.mapM Json.decodeByte).map .bytes
  | v => .error (.kind v "a URL, a data URI, or an array of bytes")

end Source

end Galley.Image

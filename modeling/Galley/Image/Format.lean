import Galley.Bytes.Utf8
import Galley.Text.Blank
import Galley.Text.Cut

/-!
# Image formats

A format is recognised by the first bytes of a file, or named by a media type.
-/

namespace Galley.Image

/-- The formats that engines are given. -/
inductive Format where
  | png
  | jpeg
  | webp
  | gif
  | svg
  deriving DecidableEq

namespace Format

/-- The name of a format. -/
def name : Format → String
  | png => "png"
  | jpeg => "jpeg"
  | webp => "webp"
  | gif => "gif"
  | svg => "svg"

/-- The media type of a format. -/
def mediaType : Format → String
  | png => "image/png"
  | jpeg => "image/jpeg"
  | webp => "image/webp"
  | gif => "image/gif"
  | svg => "image/svg+xml"

/-- The format of a media subtype in any letter case. -/
def ofSubtype? (subtype : String) : Option Format :=
  let name := String.ofList (Text.lowerAscii subtype.toList)
  if name = "png" then some png
  else if name = "jpeg" || name = "jpg" then some jpeg
  else if name = "webp" then some webp
  else if name = "gif" then some gif
  else if name = "svg" || name = "svg+xml" then some svg
  else none

/-- Does the text begin as an SVG file, after byte order marks and blanks? -/
def isSvgText (s : List Char) : Bool :=
  let s := Text.trimStart (s.dropWhile fun c => c.toNat = 0xfeff)
  Text.startsWith "<svg" s || (Text.startsWith "<?xml" s && Text.hasInfix "<svg".toList s)

/-- Do the bytes begin as a file of the format? An SVG file shows within its first 512 bytes. -/
def hasSignature (bs : Bytes) : Format → Bool
  | png => [0x89, 0x50, 0x4e, 0x47].isPrefixOf bs
  | jpeg => [0xff, 0xd8, 0xff].isPrefixOf bs
  | webp =>
    [0x52, 0x49, 0x46, 0x46].isPrefixOf bs && [0x57, 0x45, 0x42, 0x50].isPrefixOf (bs.drop 8)
  | gif => [0x47, 0x49, 0x46, 0x38].isPrefixOf bs
  | svg => isSvgText (Bytes.toTextLossy (bs.take 512))

/-- The formats, in the order in which their signatures are tried. -/
def all : List Format := [png, jpeg, webp, gif, svg]

/-- The format of a file. -/
def detect? (bs : Bytes) : Option Format := all.find? (hasSignature bs)

end Format

end Galley.Image

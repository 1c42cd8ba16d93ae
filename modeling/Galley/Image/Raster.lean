import Galley.Image.Raster.Dds
import Galley.Image.Raster.Exr
import Galley.Image.Raster.Gif
import Galley.Image.Raster.Hdr
import Galley.Image.Raster.Ico
import Galley.Image.Raster.Jpeg
import Galley.Image.Raster.Pnm
import Galley.Image.Raster.Tiff
import Galley.Image.Raster.Webp

/-!
# Raster dimensions

The width and the height in pixels that the header of a raster file declares. The first bytes of a
file say how the rest is read. What breaks off before its pixels begin has no dimensions.
-/

namespace Galley.Image.Raster

/-- A way to write a raster. -/
inductive Kind where
  | png
  | jpeg
  | gif
  | webp
  | tiff
  | dds
  | bmp
  | ico
  | hdr
  | exr
  | qoi
  | pnm
  | farbfeld
  deriving DecidableEq

namespace Kind

/-- The kinds with a signature of their own. -/
def all : List Kind := [png, jpeg, gif, webp, tiff, dds, bmp, ico, hdr, exr, qoi, pnm, farbfeld]

/-- Do the bytes begin as a file of the kind? -/
def hasSignature (bs : Bytes) : Kind → Bool
  | png => Png.signature.isPrefixOf bs
  | jpeg => [0xff, 0xd8, 0xff].isPrefixOf bs
  | gif => (Bytes.ofText "GIF89a").isPrefixOf bs || (Bytes.ofText "GIF87a").isPrefixOf bs
  | webp => (Bytes.ofText "RIFF").isPrefixOf bs && (Bytes.ofText "WEBP").isPrefixOf (bs.drop 8)
  | tiff => [0x4d, 0x4d, 0x00, 0x2a].isPrefixOf bs || [0x49, 0x49, 0x2a, 0x00].isPrefixOf bs
  | dds => (Bytes.ofText "DDS ").isPrefixOf bs
  | bmp => (Bytes.ofText "BM").isPrefixOf bs
  | ico => [0x00, 0x00, 0x01, 0x00].isPrefixOf bs
  | hdr => (Bytes.ofText "#?RADIANCE").isPrefixOf bs
  | exr => [0x76, 0x2f, 0x31, 0x01].isPrefixOf bs
  | qoi => (Bytes.ofText "qoif").isPrefixOf bs
  | pnm =>
    match bs with
    | 0x50 :: digit :: _ => 0x31 ≤ digit && digit ≤ 0x37
    | _ => false
  | farbfeld => (Bytes.ofText "farbfeld").isPrefixOf bs

/-- The dimensions of a file of the kind. -/
def pixels? (bs : Bytes) : Kind → Option Pixels
  | png => (Png.pixels Png.room).run' bs
  | jpeg => Jpeg.pixels.run' bs
  | gif => Gif.pixels.run' bs
  | webp => Webp.pixels? bs
  | tiff => Tiff.pixels? bs
  | dds => Dds.pixels.run' bs
  | bmp => Bmp.pixels.run' bs
  | ico => Ico.pixels? bs
  | hdr => Hdr.pixels.run' bs
  | exr => Exr.pixels.run' bs
  | qoi => qoiPixels.run' bs
  | pnm => Pnm.pixels.run' bs
  | farbfeld => farbfeldPixels.run' bs

end Kind

/-- The dimensions of a raster file of any kind. -/
def dimensions? (bs : Bytes) : Option Pixels :=
  (Kind.all.find? (Kind.hasSignature bs)).bind (Kind.pixels? bs)

end Galley.Image.Raster

import PaletteBitmap.Bitmap.Packed
import PaletteBitmap.Png.Reader
import PaletteBitmap.Raster.Basic

/-!
# Pictures in PNG files

`Png.pixels` gives the colors of the content of a file, and `Source.decode` reads a picture
from the bytes of an image file.
-/

namespace PaletteBitmap
namespace Png

/-! ## Transparency -/

/-- The samples of the one color that is transparent; of each, the low byte counts. -/
def clearColor (p : Png) : List UInt8 :=
  match p.kind, p.transparency.getD [] with
  | .gray, _ :: v :: _ => [v]
  | .rgb, _ :: r :: _ :: g :: _ :: b :: _ => [r, g, b]
  | _, _ => []

/-- The alphas of the colors of a palette.  More alphas than colors count for nothing. -/
def alphas (p : Png) : List UInt8 :=
  let given := p.transparency.getD []
  if 3 * given.length ≤ (p.palette.getD []).length then given else []

/-! ## Colors -/

/-- The samples of a row, each in its own byte. -/
def rowSamples (p : Png) (row : List UInt8) : List UInt8 :=
  match BitDepth.ofBits? p.depth with
  | some d => PackedBitmap.unpackRow d .highFirst (p.width * p.kind.samples) row
  | none => row

/-- The color of the samples of a pixel. -/
def pixel (p : Png) (samples : List UInt8) : Rgba :=
  let alpha : UInt8 := if samples == p.clearColor then 0 else 255
  match p.kind, samples with
  | .gray, [v] =>
    let v := UInt8.ofNat (v.toNat * 255 / (Nat.pow 2 p.depth - 1))
    ⟨v, v, v, alpha⟩
  | .rgb, [r, g, b] => ⟨r, g, b, alpha⟩
  | .indexed, [i] =>
    match ((p.palette.getD []).drop (3 * i.toNat)).take 3 with
    | [r, g, b] => ⟨r, g, b, p.alphas.getD i.toNat 255⟩
    | _ => ⟨0, 0, 0, 255⟩
  | .grayAlpha, [v, a] => ⟨v, v, v, a⟩
  | .rgba, [r, g, b, a] => ⟨r, g, b, a⟩
  | _, _ => Rgba.transparent

/-- The pixels row by row. -/
def pixels (p : Png) : List Rgba :=
  (groups p.stride p.rows).flatMap fun row =>
    (groups p.kind.samples (p.rowSamples row)).map p.pixel

/-- The picture of a file. -/
def toSource (p : Png) : Except RasterError Source :=
  Source.ofBytes p.width p.height (Rgba.listToBytes p.pixels)

end Png

namespace Source

def decode (bytes : List UInt8) : Except RasterError Source :=
  match Png.decode bytes with
  | some p => p.toSource
  | none => .error (.decode "The image format could not be determined")

end Source

end PaletteBitmap

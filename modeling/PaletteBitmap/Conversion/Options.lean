import PaletteBitmap.Conversion.Request
import PaletteBitmap.Encoder
import PaletteBitmap.Raster.Resample

/-!
# Options of a conversion

The choices of a conversion beyond its size, depth, number of colors and paths.
-/

namespace PaletteBitmap

/-- How an image is resampled, reduced and written. -/
structure ConversionOptions where
  mode : ResizeMode := .stretch
  /-- The color of the border in fit mode. -/
  padColor : Rgba := Rgba.transparent
  /-- The most rounds of refinement. -/
  iterations : Nat := 4
  order : PixelOrder := .lowFirst
  format : PaletteFormat := .rgba8888
  cutoff : UInt8 := 128
  /-- Whether the palette is filled up to what the depth can tell apart. -/
  pad : Bool := false
  deriving DecidableEq, Repr, Inhabited

namespace ConversionOptions

/-- The encoder for some settings under these options. -/
def encoder (o : ConversionOptions) (s : EncodeSettings) : Encoder :=
  { depth := s.depth
    options := ⟨s.count, o.iterations⟩
    order := o.order
    format := o.format
    cutoff := o.cutoff
    pad := o.pad }

end ConversionOptions

end PaletteBitmap

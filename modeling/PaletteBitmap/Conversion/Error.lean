import PaletteBitmap.File.Error
import PaletteBitmap.File.Path
import PaletteBitmap.Quantize.Basic
import PaletteBitmap.Raster.Basic

/-!
# Failures of a conversion

Everything that can go wrong between the parameters of a conversion and its files.  Failures
of the stages are taken over with what the caller knows besides: the path of the source, the
depth of the bitmap.
-/

namespace PaletteBitmap

inductive ConvertError where
  | decode (path : Path) (reason : String)
  | invalidDimensions (width height : Nat)
  /-- No bitmap has pixels of so many bits. -/
  | invalidBitDepth (bits : Nat)
  /-- More colors are asked for than pixels of the depth can tell apart. -/
  | invalidQuantizeCount (count bits capacity : Nat)
  /-- All colors are to be kept but there are too many. -/
  | paletteOverflow (distinct bits capacity : Nat)
  | encodingFailure (reason : String)
  /-- The outputs would overwrite each other or the source. -/
  | invalidOutputPaths (reason : String)
  /-- A bitmap and a palette do not go together. -/
  | invalidAssets (reason : String)
  | pngEncode (reason : String)
  | io (path : Path) (cause : FileError)
  deriving DecidableEq, Repr

namespace ConvertError

def message : ConvertError → String
  | decode path reason => "Decode error: " ++ path.text ++ ": " ++ reason
  | invalidDimensions width height => s!"Invalid dimensions: {width}x{height}"
  | invalidBitDepth bits => s!"Invalid bit depth: {bits} (supported: 1, 2, 4, 8)"
  | invalidQuantizeCount count bits capacity =>
    s!"Invalid quantize count: {count} exceeds the {capacity} colors of a {bits}-bit index"
  | paletteOverflow distinct bits capacity =>
    s!"Palette overflow: {distinct} distinct colors do not fit a {bits}-bit index ({capacity} max)"
  | encodingFailure reason => "Encoding failure: " ++ reason
  | invalidOutputPaths reason => "Invalid output paths: " ++ reason
  | invalidAssets reason => "Invalid assets: " ++ reason
  | pngEncode reason => "PNG encode error: " ++ reason
  | io path cause => "IO error: " ++ path.text ++ ": " ++ cause.message

/-- The complaint of the cause inside, if there is one. -/
def cause? : ConvertError → Option String
  | io _ cause => some cause.message
  | _ => none

def ofEncode (e : EncodeError) (d : BitDepth) : ConvertError :=
  match e with
  | .invalidQuantizeCount count capacity => invalidQuantizeCount count d.bits capacity
  | .paletteOverflow distinct capacity => paletteOverflow distinct d.bits capacity
  | other => encodingFailure other.message

/-- Takes over a failure to decode or resample the source at a path. -/
def ofRaster (e : RasterError) (path : Path) : ConvertError :=
  match e with
  | .io cause => io path cause
  | .invalidDimensions width height => invalidDimensions width height
  | other => decode path other.message

end ConvertError

end PaletteBitmap

import PaletteBitmap.Config.Basic
import PaletteBitmap.Conversion.External
import PaletteBitmap.Conversion.Output
import PaletteBitmap.Png.Picture

/-!
# Conversions

A conversion checks the request, reads the source, brings it to the wanted size if there is
one, encodes it, and writes both files.  The stages before the last write nothing, and the last
writes both files or none.

A conversion without a size encodes the source as it is.

How image files are decoded is a parameter, `Decoder`, and so is how images are scaled,
`Resample.Resizer`; `Pipeline.run` decodes PNG files and scales with the Lanczos filter.
-/

namespace PaletteBitmap

/-- A way of reading a picture from the bytes of a file. -/
abbrev Decoder := List UInt8 → Except RasterError Source

namespace Source

def ofFileWith (decode : Decoder) (w : Workspace) (p : Path) : Except RasterError Source :=
  match w.read p with
  | .error e => .error (.io e)
  | .ok data => decode data

def ofFile (w : Workspace) (p : Path) : Except RasterError Source := ofFileWith decode w p

end Source

inductive EncoderChoice where
  | builtIn
  | external (e : ExternalEncoder)
  deriving DecidableEq, Repr, Inhabited

def EncoderChoice.name : EncoderChoice → String
  | builtIn => "in-process"
  | external _ => "external"

/-- What a finished conversion has written. -/
structure ConversionReport where
  width : Nat
  height : Nat
  depth : BitDepth
  /-- The entries of the palette, those of the padding included. -/
  entries : Nat
  imageBytes : Nat
  paletteBytes : Nat
  outputs : OutputPair
  deriving DecidableEq, Repr

/-- How conversions are done. -/
structure Pipeline where
  options : ConversionOptions := {}
  encoder : EncoderChoice := .builtIn
  deriving DecidableEq, Repr, Inhabited

namespace Pipeline

/-- The pipeline of a configuration; an encoder of its own writes in the form that the options
ask for. -/
def ofConfig (c : Config) : Except ConfigError Pipeline :=
  match c.options with
  | .error e => .error e
  | .ok options =>
    match c.encoder.program with
    | none => .ok ⟨options, .builtIn⟩
    | some program =>
      .ok ⟨options, .external
        ⟨program, c.encoder.args, ⟨options.format, options.order, options.pad⟩⟩⟩

def encode (p : Pipeline) (run : Runner) (w : Workspace) (image : Raster)
    (s : EncodeSettings) : Except ConvertError EncodedPair × Workspace :=
  match p.encoder with
  | .builtIn => (p.options.encode image s, w)
  | .external e => e.encode run w image s

/-- The image that a source is encoded as. -/
def canonical (resizer : Resample.Resizer) (p : Pipeline) (source : Source) :
    Option (Nat × Nat) → Except RasterError Raster
  | none => .ok (Raster.ofSource source)
  | some (width, height) =>
    source.resampleWith resizer Resample.scaled width height p.options.mode p.options.padColor

/-- Reads the source of a request and brings it to the wanted size. -/
def prepareWith (decode : Decoder) (resizer : Resample.Resizer) (p : Pipeline) (w : Workspace)
    (r : ConversionRequest) : Except ConvertError Raster :=
  match Source.ofFileWith decode w r.paths.source with
  | .error e => .error (.ofRaster e r.paths.source)
  | .ok source =>
    match p.canonical resizer source r.size with
    | .error e => .error (.ofRaster e r.paths.source)
    | .ok image => .ok image

/-- Encodes an image and writes both files. -/
def finish (p : Pipeline) (run : Runner) (w : Workspace) (image : Raster)
    (s : EncodeSettings) (out : OutputPair) : Except ConvertError ConversionReport × Workspace :=
  match p.encode run w image s with
  | (.error e, w₁) => (.error e, w₁)
  | (.ok pair, w₁) =>
    match out.commit w₁ pair.image pair.palette with
    | (.error e, w₂) => (.error e, w₂)
    | (.ok (), w₂) =>
      (.ok ⟨image.width, image.height, s.depth, pair.entries, pair.image.length,
        pair.palette.length, out⟩, w₂)

/-- Does a conversion, with a way of decoding the source and one of scaling it. -/
def runWith (decode : Decoder) (resizer : Resample.Resizer) (p : Pipeline) (runner : Runner)
    (w : Workspace) (params : ConversionParams) :
    Except ConvertError ConversionReport × Workspace :=
  match params.validate w with
  | .error e => (.error e, w)
  | .ok request =>
    match p.prepareWith decode resizer w request with
    | .error e => (.error e, w)
    | .ok image =>
      p.finish runner w image request.settings ⟨request.paths.image, request.paths.palette⟩

def run (p : Pipeline) (runner : Runner) (w : Workspace) (params : ConversionParams) :
    Except ConvertError ConversionReport × Workspace :=
  p.runWith Source.decode Resample.lanczos runner w params

end Pipeline

end PaletteBitmap

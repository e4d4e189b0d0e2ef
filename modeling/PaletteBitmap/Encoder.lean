import PaletteBitmap.Bitmap.Indexed
import PaletteBitmap.Palette.Layout
import PaletteBitmap.Quantize.Basic
import PaletteBitmap.Raster.Basic

/-!
# Encoding rasters

An encoder turns a raster into a packed bitmap and the bytes of its palette.  It is a record
of choices: the depth, the number of colors, the rounds of refinement, the order of the
pixels and the layout of the palette.
-/

namespace PaletteBitmap

/-- The choices that encoding is made with. -/
structure Encoder where
  depth : BitDepth
  options : QuantizeOptions
  order : PixelOrder := .lowFirst
  format : PaletteFormat := .rgba8888
  cutoff : UInt8 := 128
  /-- Whether the palette is filled up to what the depth can tell apart. -/
  pad : Bool := false
  deriving DecidableEq, Repr

/-- What encoding yields. -/
structure EncodedImage where
  bitmap : PackedBitmap
  palette : Palette
  paletteBytes : List UInt8
  deriving DecidableEq, Repr

namespace Encoder

/-- The encoder for a depth with the usual choices: sixteen colors if the depth has them. -/
def ofDepth (d : BitDepth) : Encoder :=
  { depth := d, options := { count := min 16 d.capacity } }

/-- The encoder itself if the depth has as many colors as asked for. -/
def validated (e : Encoder) : Except EncodeError Encoder :=
  if e.depth.capacity < e.options.count then
    .error (.invalidQuantizeCount e.options.count e.depth.capacity)
  else .ok e

/-- How the palette is laid out. -/
def layout (e : Encoder) : PaletteLayout :=
  ⟨e.format, e.cutoff, if e.pad then some e.depth.capacity else none⟩

def index (e : Encoder) (image : Raster) : Except EncodeError IndexedImage :=
  match quantize image.pixels e.depth e.options with
  | .error cause => .error cause
  | .ok q => .ok ⟨q.indices, image.width, image.height, q.palette⟩

/-! ## Given palettes -/

/-- The positions found so far and those of the pixels already looked at, last first. -/
structure Matching where
  known : Std.HashMap Rgba UInt8 := ∅
  indices : List UInt8 := []

/-- Matches one more pixel; each color is searched for once. -/
def Matching.add (search : Rgba → Nat) (m : Matching) (c : Rgba) : Matching :=
  match m.known[c]? with
  | some i => ⟨m.known, i :: m.indices⟩
  | none =>
    let i := UInt8.ofNat (search c)
    ⟨m.known.insert c i, i :: m.indices⟩

/-- Draws an image in the colors of a given palette, each pixel in the nearest. -/
def indexWithPalette (e : Encoder) (image : Raster) (palette : Palette) :
    Except EncodeError IndexedImage :=
  if e.depth.capacity < palette.size then
    .error (.paletteOverflow palette.size e.depth.capacity)
  else
    let points := palette.points
    let search := Palette.nearestPoint Perceptual.distance points
    let matching := image.pixels.foldl (Matching.add search) {}
    .ok ⟨matching.indices.reverse, image.width, image.height, palette⟩

/-! ## Packing -/

def pack (e : Encoder) (image : IndexedImage) : Except EncodeError EncodedImage :=
  match image.pack e.depth e.order with
  | .error cause => .error (.pack cause)
  | .ok bitmap => .ok ⟨bitmap, image.palette, image.palette.toBytes e.layout⟩

def encode (e : Encoder) (image : Raster) : Except EncodeError EncodedImage :=
  match e.index image with
  | .error cause => .error cause
  | .ok indexed => e.pack indexed

end Encoder

end PaletteBitmap

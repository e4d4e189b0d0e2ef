import PaletteBitmap.Bitmap.Packed
import PaletteBitmap.Palette.Basic
import PaletteBitmap.Quantize.Refine

/-!
# Reducing the colors of an image

An image is brought to a palette of at most as many colors as asked for.  If it has no more
than that, its own colors are the palette.  Otherwise its colors are clustered, by cuts at the
medians and rounds of refinement, and every cluster is drawn in its mean color.

Palette positions are numbered by first use along the image, and clusters with the same mean
share one.  Both come from one idea: the picture of means has a histogram, and that is the
palette.
-/

namespace PaletteBitmap

inductive EncodeError where
  /-- More colors asked for than the depth can tell apart. -/
  | invalidQuantizeCount (count capacity : Nat)
  /-- All colors are to be kept but the depth cannot tell that many apart. -/
  | paletteOverflow (distinct capacity : Nat)
  | emptyImage
  | palette (cause : PaletteError)
  | pack (cause : PackError)
  deriving DecidableEq, Repr

namespace EncodeError

def message : EncodeError → String
  | invalidQuantizeCount count capacity =>
    s!"quantize count {count} exceeds the {capacity} entries the bit depth can index"
  | paletteOverflow distinct capacity =>
    s!"image has {distinct} distinct colors but the bit depth indexes only {capacity}"
  | emptyImage => "image has no pixels"
  | palette cause => "palette error: " ++ cause.message
  | pack cause => "packing error: " ++ cause.message

/-- The complaint of the cause inside, if there is one. -/
def cause? : EncodeError → Option String
  | palette cause => some cause.message
  | pack cause => some cause.message
  | _ => none

end EncodeError

/-- What to reduce an image to. -/
structure QuantizeOptions where
  /-- The most palette entries; zero keeps all colors. -/
  count : Nat := 16
  /-- The most rounds of refinement. -/
  iterations : Nat := 4
  deriving DecidableEq, Repr, Inhabited

/-- A palette and the palette position of every pixel. -/
structure Quantized where
  palette : Palette
  indices : List UInt8
  deriving DecidableEq, Repr

namespace Quantize

/-- The clusters of the colors of an image when at most `count` are asked for. -/
def cluster (dist : Perceptual → Perceptual → Float32) (entries : List HistogramEntry)
    (options : QuantizeOptions) : Clustering :=
  if options.count = 0 ∨ entries.length ≤ options.count then Clustering.identity entries.length
  else
    let cut := Clustering.medianCut entries options.count
    ⟨Clustering.refine dist entries cut.assignment cut.clusters options.iterations,
      cut.clusters⟩

/-- The color in which each histogram entry is drawn: the mean of its cluster. -/
def drawn (entries : List HistogramEntry) (k : Clustering) : List Rgba :=
  let means := (Clustering.sums entries k.assignment k.clusters).map ColorSum.mean
  k.assignment.map fun c => means.getD c Rgba.transparent

def draw (histogram : Histogram) (k : Clustering) : Except EncodeError Quantized :=
  let table := Histogram.ofPixels (drawn histogram.entries.toList k)
  match Palette.ofList table.colors with
  | .error e => .error (.palette e)
  | .ok palette =>
    .ok ⟨palette, histogram.pixelEntries.toList.map fun e =>
      UInt8.ofNat (table.pixelEntries.getD e 0)⟩

end Quantize

/-- Reduces pixels to a palette for a depth, with a measure of distance to choose by. -/
def quantizeWith (dist : Perceptual → Perceptual → Float32) (pixels : List Rgba)
    (depth : BitDepth) (options : QuantizeOptions) : Except EncodeError Quantized :=
  if depth.capacity < options.count then
    .error (.invalidQuantizeCount options.count depth.capacity)
  else if pixels.isEmpty then .error .emptyImage
  else
    let histogram := Histogram.ofPixels pixels
    if options.count = 0 ∧ depth.capacity < histogram.size then
      .error (.paletteOverflow histogram.size depth.capacity)
    else
      Quantize.draw histogram (Quantize.cluster dist histogram.entries.toList options)

def quantize (pixels : List Rgba) (depth : BitDepth) (options : QuantizeOptions) :
    Except EncodeError Quantized :=
  quantizeWith Perceptual.distance pixels depth options

end PaletteBitmap

import PaletteBitmap.Name
import PaletteBitmap.Raster.Basic
import PaletteBitmap.Raster.Lanczos
import PaletteBitmap.Text.Blank

/-!
# Bringing an image to a size

A source is brought to a target size in one of three ways.  *Stretch* scales each side by
itself.  *Fit* scales both sides alike until the image fits into the target and fills the
border with a color.  *Crop* scales both sides alike until the image covers the target and
cuts off what stands over.  A source of the target size is taken as it is.

The scale is computed in single precision and its result brought into bounds, so placing and
cutting are always within the image, whatever rounding does.  How a side is scaled is a parameter,
`Scaling`, and so is how an image is scaled to the sides found, `Resizer`; `Source.resample`
multiplies and rounds, and scales with the Lanczos filter.
-/

namespace PaletteBitmap

/-! ## Modes -/

/-- How an image of another shape is brought to a size. -/
inductive ResizeMode where
  | stretch
  | fit
  | crop
  deriving DecidableEq, Repr, Inhabited

namespace ResizeMode

def name : ResizeMode → String
  | stretch => "stretch"
  | fit => "fit"
  | crop => "crop"

/-- The mode of a name in letters of any case. -/
def ofName (s : String) : Except UnknownName ResizeMode :=
  match Text.lowered s with
  | "stretch" => .ok stretch
  | "fit" | "fit-pad" => .ok fit
  | "crop" | "crop-center" => .ok crop
  | _ => .error (.resizeMode s)

end ResizeMode

/-! ## Geometry -/

namespace Resample

/-- A way of scaling a side to a whole number. -/
abbrev Scaling := Nat → Float32 → Nat

/-- A way of scaling the pixels of an image with two sides to two others. -/
structure Resizer where
  resize : List Rgba → Nat → Nat → Nat → Nat → List Rgba
  /-- The result has as many pixels as its sides say. -/
  length_resize (pixels : List Rgba) (width height newWidth newHeight : Nat)
    (h : pixels.length = width * height) :
    (resize pixels width height newWidth newHeight).length = newWidth * newHeight

/-- Scaling with the Lanczos filter. -/
def lanczos : Resizer := ⟨Lanczos.resize, Lanczos.length_resize⟩

/-- A side scaled and rounded to a whole number below `2³²`. -/
def scaled (side : Nat) (scale : Float32) : Nat :=
  (Float32.ofNat side * scale).round.toUInt32.toNat

/-- The scale from a side to a target side. -/
def scaleOf (side target : Nat) : Float32 := Float32.ofNat target / Float32.ofNat side

/-- The side of a fitted image: at least one and at most the target. -/
def fitSide (scaling : Scaling) (side target : Nat) (scale : Float32) : Nat :=
  max 1 (min (scaling side scale) target)

/-- The side of a covering image: at least the target. -/
def coverSide (scaling : Scaling) (side target : Nat) (scale : Float32) : Nat :=
  max (scaling side scale) target

/-- The smaller of two scales. -/
def lesser (x y : Float32) : Float32 := if y < x then y else x

/-- The larger of two scales. -/
def greater (x y : Float32) : Float32 := if x < y then y else x

/-- An image of `w * h` pixels in the middle of one of `width * height`, on a color. -/
def place (pixels : List Rgba) (w h width height : Nat) (pad : Rgba) : List Rgba :=
  let inner := pixels.toArray
  let left := (width - w) / 2
  let top := (height - h) / 2
  (List.range (width * height)).map fun i =>
    let x := i % width
    let y := i / width
    if left ≤ x ∧ x < left + w ∧ top ≤ y ∧ y < top + h then
      inner.getD ((y - top) * w + (x - left)) pad
    else pad

/-- The `width * height` pixels in the middle of an image of `w * h`. -/
def window (pixels : List Rgba) (w h width height : Nat) : List Rgba :=
  let outer := pixels.toArray
  let left := (w - width) / 2
  let top := (h - height) / 2
  (List.range (width * height)).map fun i =>
    outer.getD ((top + i / width) * w + (left + i % width)) Rgba.transparent

/-- The pixels of an image of `w * h` brought to another size. -/
def pixels (resizer : Resizer) (scaling : Scaling) (mode : ResizeMode) (image : List Rgba)
    (w h width height : Nat) (pad : Rgba) : List Rgba :=
  match mode with
  | .stretch => resizer.resize image w h width height
  | .fit =>
    let scale := lesser (scaleOf w width) (scaleOf h height)
    let w' := fitSide scaling w width scale
    let h' := fitSide scaling h height scale
    -- The sides are within the target, so the border is never negative.
    place (resizer.resize image w h w' h') w' h' width height pad
  | .crop =>
    let scale := greater (scaleOf w width) (scaleOf h height)
    let w' := coverSide scaling w width scale
    let h' := coverSide scaling h height scale
    -- The sides cover the target, so the window never leaves the image.
    window (resizer.resize image w h w' h') w' h' width height

theorem length_pixels (resizer : Resizer) (scaling : Scaling) (mode : ResizeMode)
    (image : List Rgba) (w h width height : Nat) (pad : Rgba) (hl : image.length = w * h) :
    (pixels resizer scaling mode image w h width height pad).length = width * height := by
  cases mode with
  | stretch => exact resizer.length_resize image w h width height hl
  | fit => simp [pixels, place]
  | crop => simp [pixels, window]

end Resample

/-! ## Resampling -/

namespace Source

/-- Brings a source to a size, with a way of scaling images and one of scaling sides. -/
def resampleWith (resizer : Resample.Resizer) (scaling : Resample.Scaling) (s : Source)
    (width height : Nat) (mode : ResizeMode) (pad : Rgba) : Except RasterError Raster :=
  if hw : 0 < width then
    if hh : 0 < height then
      let whole := Raster.ofSource s
      if s.width = width ∧ s.height = height then .ok whole
      else
        .ok
          { width := width
            height := height
            pixels :=
              Resample.pixels resizer scaling mode whole.pixels whole.width whole.height width
                height pad
            width_pos := hw
            height_pos := hh
            length_pixels := Resample.length_pixels _ _ _ _ _ _ _ _ _ whole.length_pixels }
    else .error (.invalidDimensions width height)
  else .error (.invalidDimensions width height)

def resample (s : Source) (width height : Nat) (mode : ResizeMode) (pad : Rgba) :
    Except RasterError Raster :=
  s.resampleWith Resample.lanczos Resample.scaled width height mode pad

end Source

end PaletteBitmap

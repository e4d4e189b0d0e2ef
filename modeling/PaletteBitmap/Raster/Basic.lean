import PaletteBitmap.Color.Rgba
import PaletteBitmap.File.Error

/-!
# Rasters

Two forms of an image of plain colors.  A `Source` is what decoding yields: a size and the
bytes of at least that many pixels.  A `Raster` is an image ready for encoding: a size and
exactly that many pixels.  Neither has a side of length zero.
-/

namespace PaletteBitmap

inductive RasterError where
  /-- The bytes are no image that can be read. -/
  | decode (reason : String)
  | io (cause : FileError)
  | emptySource (width height : Nat)
  /-- A side of the wanted image is zero. -/
  | invalidDimensions (width height : Nat)
  /-- There are not as many bytes as the size needs. -/
  | bufferSize (expected actual : Nat)
  deriving DecidableEq, Repr

def RasterError.message : RasterError → String
  | .decode reason => "failed to decode image: " ++ reason
  | .io cause => "failed to read image: " ++ cause.message
  | .emptySource width height => s!"source image is empty ({width}x{height})"
  | .invalidDimensions width height => s!"invalid target dimensions {width}x{height}"
  | .bufferSize expected actual =>
    s!"pixel buffer holds {actual} bytes, dimensions need {expected}"

/-! ## Sources -/

/-- A decoded image: its size and the bytes of its pixels, perhaps with more after them. -/
structure Source where
  width : Nat
  height : Nat
  bytes : List UInt8
  width_pos : 0 < width
  height_pos : 0 < height
  enough : width * height * 4 ≤ bytes.length
  deriving DecidableEq, Repr

namespace Source

/-- Wraps the bytes of pixels, four bytes a pixel, row by row. -/
def ofBytes (width height : Nat) (bytes : List UInt8) : Except RasterError Source :=
  if h : width * height * 4 ≤ bytes.length then
    if hz : 0 < width ∧ 0 < height then .ok ⟨width, height, bytes, hz.1, hz.2, h⟩
    else .error (.emptySource width height)
  else .error (.bufferSize (width * height * 4) bytes.length)

end Source

/-! ## Rasters -/

/-- An image of exactly as many pixels as its size says. -/
structure Raster where
  width : Nat
  height : Nat
  pixels : List Rgba
  width_pos : 0 < width
  height_pos : 0 < height
  length_pixels : pixels.length = width * height
  deriving DecidableEq, Repr

namespace Raster

/-- Makes an image of pixels given row by row. -/
def ofPixels (width height : Nat) (pixels : List Rgba) : Except RasterError Raster :=
  if hz : 0 < width ∧ 0 < height then
    if h : pixels.length = width * height then
      .ok ⟨width, height, pixels, hz.1, hz.2, h⟩
    else .error (.bufferSize (width * height * 4) (pixels.length * 4))
  else .error (.invalidDimensions width height)

/-- A decoded image as it is: the bytes after the last pixel are left out. -/
def ofSource (s : Source) : Raster where
  width := s.width
  height := s.height
  pixels := Rgba.listOfBytes (s.bytes.take (s.width * s.height * 4))
  width_pos := s.width_pos
  height_pos := s.height_pos
  length_pixels := by
    rw [Rgba.length_listOfBytes, List.length_take, Nat.min_eq_left s.enough]
    exact Nat.mul_div_cancel _ (by decide)

/-- The bytes of the pixels, row by row. -/
def toBytes (m : Raster) : List UInt8 := Rgba.listToBytes m.pixels

end Raster

end PaletteBitmap

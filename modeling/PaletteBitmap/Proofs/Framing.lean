import Mathlib
import PaletteBitmap.Raster.Resample

/-!
# Frames and windows

Fitting and cropping are one relation read in two directions: a smaller image is what a larger one
shows in a window in its middle (`Raster.Window`).  Fitting scales the source to the smaller and
makes the larger, with a color all around the window; cropping scales the source to the larger and
makes the smaller.  What is left over before and after the window differs by one at most.

The sides of the scaled image come out of single-precision arithmetic.  Nothing is assumed of it:
how a side is scaled is a parameter, and because its result is brought into bounds, the smaller
image is never larger than the other (`Source.resampleWith_in_bounds`).
-/

namespace PaletteBitmap

namespace Raster

variable {whole m inner outer : Raster} {x y : Nat} {pad : Rgba}

/-! ## Places in an image -/

/-- The pixel at a place has a number below that of all pixels. -/
theorem index_lt {width height : Nat} (hx : x < width) (hy : y < height) :
    y * width + x < width * height := by
  calc
    y * width + x < y * width + width := Nat.add_lt_add_left hx _
    _ = width * (y + 1) := by ring
    _ ≤ width * height := Nat.mul_le_mul_left width hy

/-- A list of rows that is made place by place. -/
theorem getElem?_rows {width height : Nat} (color : Nat → Nat → Rgba) (hx : x < width)
    (hy : y < height) :
    ((List.range (width * height)).map fun i => color (i % width) (i / width))[
      y * width + x]? = some (color x y) := by
  have hmod : (y * width + x) % width = x := by
    rw [Nat.add_comm, Nat.add_mul_mod_self_right, Nat.mod_eq_of_lt hx]
  have hdiv : (y * width + x) / width = y := by
    rw [Nat.add_comm, Nat.add_mul_div_right _ _ (by omega), Nat.div_eq_of_lt hx, Nat.zero_add]
  rw [List.getElem?_map, List.getElem?_range (index_lt hx hy), Option.map_some, hmod, hdiv]

/-- The color at a place, if the place is in the image. -/
def at? (m : Raster) (x y : Nat) : Option Rgba :=
  if x < m.width ∧ y < m.height then m.pixels[y * m.width + x]? else none

theorem at?_of_lt (hx : x < m.width) (hy : y < m.height) :
    m.at? x y = m.pixels[y * m.width + x]? :=
  if_pos ⟨hx, hy⟩

/-- A place in an image has a color, so what is given for places outside is never used. -/
theorem at?_eq_some_getD (hx : x < m.width) (hy : y < m.height) (outside : Rgba) :
    m.at? x y = some (m.pixels.toArray.getD (y * m.width + x) outside) := by
  have hlt : y * m.width + x < m.pixels.length := by
    rw [m.length_pixels]
    exact index_lt hx hy
  rw [at?_of_lt hx hy]
  simp [hlt]

/-! ## Windows -/

/-- A length in the middle of a longer one, with what is left over before and after it. -/
structure Middle (inner outer before after : Nat) : Prop where
  sum_eq : before + inner + after = outer
  before_eq : before = (outer - inner) / 2
  before_le : before ≤ after
  after_le : after ≤ before + 1

theorem exists_middle {inner outer : Nat} (h : inner ≤ outer) :
    ∃ after, Middle inner outer ((outer - inner) / 2) after := by
  refine ⟨outer - inner - (outer - inner) / 2, ?_, rfl, ?_, ?_⟩
  all_goals omega

/-- One image is what another shows in a window in its middle. -/
structure Window (inner outer : Raster) (left right top bottom : Nat) : Prop where
  horizontal : Middle inner.width outer.width left right
  vertical : Middle inner.height outer.height top bottom
  shown : ∀ x y, x < inner.width → y < inner.height →
    inner.at? x y = outer.at? (left + x) (top + y)

/-- Everything in an image is of one color, what is left over around a window aside. -/
def Bordered (inner outer : Raster) (left top : Nat) (pad : Rgba) : Prop :=
  ∀ x y, x < outer.width → y < outer.height →
    ¬ (left ≤ x ∧ x < left + inner.width ∧ top ≤ y ∧ y < top + inner.height) →
    outer.at? x y = some pad

theorem window_self (m : Raster) : Window m m 0 0 0 0 where
  horizontal := ⟨by omega, by omega, by omega, by omega⟩
  vertical := ⟨by omega, by omega, by omega, by omega⟩
  shown := by
    intro x y _ _
    rw [Nat.zero_add, Nat.zero_add]

theorem bordered_self (m : Raster) (pad : Rgba) : Bordered m m 0 0 pad := by
  intro x y hx hy hout
  exact absurd ⟨Nat.zero_le x, by omega, Nat.zero_le y, by omega⟩ hout

/-- A placed image stands in the middle, on the color of the border. -/
theorem at?_place
    (hpixels : outer.pixels = Resample.place inner.pixels inner.width inner.height outer.width
      outer.height pad) (hx : x < outer.width) (hy : y < outer.height) :
    outer.at? x y = some (
      if (outer.width - inner.width) / 2 ≤ x ∧
          x < (outer.width - inner.width) / 2 + inner.width ∧
          (outer.height - inner.height) / 2 ≤ y ∧
          y < (outer.height - inner.height) / 2 + inner.height then
        inner.pixels.toArray.getD ((y - (outer.height - inner.height) / 2) * inner.width +
          (x - (outer.width - inner.width) / 2)) pad
      else pad) := by
  rw [at?_of_lt hx hy, hpixels, Resample.place]
  exact getElem?_rows (fun x y => if _ ≤ x ∧ x < _ ∧ _ ≤ y ∧ y < _ then
    inner.pixels.toArray.getD ((y - _) * inner.width + (x - _)) pad else pad) hx hy

theorem window_of_place (hwidth : inner.width ≤ outer.width) (hheight : inner.height ≤ outer.height)
    (hpixels : outer.pixels = Resample.place inner.pixels inner.width inner.height outer.width
      outer.height pad) :
    ∃ left right top bottom, Window inner outer left right top bottom ∧
      Bordered inner outer left top pad := by
  obtain ⟨right, horizontal⟩ := exists_middle hwidth
  obtain ⟨bottom, vertical⟩ := exists_middle hheight
  have hat := fun x y => at?_place (x := x) (y := y) hpixels
  generalize (outer.width - inner.width) / 2 = left at hat horizontal
  generalize (outer.height - inner.height) / 2 = top at hat vertical
  refine ⟨left, right, top, bottom, ⟨horizontal, vertical, ?_⟩, ?_⟩
  · intro x y hx hy
    have hsum := horizontal.sum_eq
    have hsum' := vertical.sum_eq
    rw [hat (left + x) (top + y) (by omega) (by omega), if_pos (by omega),
      at?_eq_some_getD hx hy pad, Nat.add_sub_cancel_left, Nat.add_sub_cancel_left]
  · intro x y hx hy hout
    rw [hat x y hx hy, if_neg hout]

theorem window_of_cut (hwidth : inner.width ≤ outer.width) (hheight : inner.height ≤ outer.height)
    (hpixels : inner.pixels = Resample.window outer.pixels outer.width outer.height inner.width
      inner.height) :
    ∃ left right top bottom, Window inner outer left right top bottom := by
  obtain ⟨right, horizontal⟩ := exists_middle hwidth
  obtain ⟨bottom, vertical⟩ := exists_middle hheight
  refine ⟨_, right, _, bottom, horizontal, vertical, ?_⟩
  intro x y hx hy
  -- The window is within the image, so the color that stands for places outside never shows.
  have hwithin : (outer.width - inner.width) / 2 + x < outer.width := by
    have hsum := horizontal.sum_eq
    omega
  have hwithin' : (outer.height - inner.height) / 2 + y < outer.height := by
    have hsum := vertical.sum_eq
    omega
  rw [at?_eq_some_getD hwithin hwithin' Rgba.transparent, at?_of_lt hx hy, hpixels,
    Resample.window]
  exact getElem?_rows (fun x y => outer.pixels.toArray.getD ((_ + y) * outer.width + (_ + x))
    Rgba.transparent) hx hy

/-! ## Scaled images -/

/-- An image is another one, as it is or scaled to its sides. -/
def ScaledFrom (resizer : Resample.Resizer) (whole m : Raster) : Prop :=
  m = whole ∨ m.pixels = resizer.resize whole.pixels whole.width whole.height m.width m.height

/-- An image scaled to some sides. -/
def scaledTo (resizer : Resample.Resizer) (whole : Raster) (width height : Nat) (hw : 0 < width)
    (hh : 0 < height) : Raster where
  width := width
  height := height
  pixels := resizer.resize whole.pixels whole.width whole.height width height
  width_pos := hw
  height_pos := hh
  length_pixels := resizer.length_resize _ _ _ _ _ whole.length_pixels

/-- An image is another one brought to its size in some mode.  A fitted image shows the scaled one
in a window in its middle, with a border of one color; a cropped one is what the scaled one shows
in such a window. -/
inductive BroughtFrom (resizer : Resample.Resizer) (whole m : Raster) (pad : Rgba) :
    ResizeMode → Prop where
  | stretched (hscaled : ScaledFrom resizer whole m) : BroughtFrom resizer whole m pad .stretch
  | fitted {inner : Raster} {left right top bottom : Nat}
      (hscaled : ScaledFrom resizer whole inner) (hwindow : Window inner m left right top bottom)
      (hborder : Bordered inner m left top pad) : BroughtFrom resizer whole m pad .fit
  | cropped {outer : Raster} {left right top bottom : Nat}
      (hscaled : ScaledFrom resizer whole outer) (hwindow : Window m outer left right top bottom) :
      BroughtFrom resizer whole m pad .crop

theorem broughtFrom_self (resizer : Resample.Resizer) (m : Raster) (pad : Rgba)
    (mode : ResizeMode) : BroughtFrom resizer m m pad mode := by
  have hscaled : ScaledFrom resizer m m := .inl rfl
  cases mode with
  | stretch => exact .stretched hscaled
  | fit => exact .fitted hscaled (window_self m) (bordered_self m pad)
  | crop => exact .cropped hscaled (window_self m)

end Raster

/-! ## Main statement -/

namespace Source

open Raster

variable {resizer : Resample.Resizer} {scaling : Resample.Scaling} {s : Source}
  {width height : Nat} {mode : ResizeMode} {pad : Rgba}

theorem resampleWith_of_zero (h : width = 0 ∨ height = 0) :
    s.resampleWith resizer scaling width height mode pad =
      .error (.invalidDimensions width height) := by
  rw [resampleWith]
  split
  · rw [dif_neg (by omega)]
  · rfl

/-- A source of the size that is asked for is taken as it is, whatever the mode. -/
theorem resampleWith_self (resizer : Resample.Resizer) (scaling : Resample.Scaling) (s : Source)
    (mode : ResizeMode) (pad : Rgba) :
    s.resampleWith resizer scaling s.width s.height mode pad = .ok (ofSource s) := by
  rw [resampleWith, dif_pos s.width_pos, dif_pos s.height_pos]
  exact if_pos ⟨rfl, rfl⟩

/-- A fitted side is brought between one and the side of the target. -/
theorem broughtFrom_fit {whole m : Raster}
    (hpixels : m.pixels = Resample.pixels resizer scaling .fit whole.pixels whole.width whole.height
      m.width m.height pad) : BroughtFrom resizer whole m pad .fit := by
  let scale := Resample.lesser (Resample.scaleOf whole.width m.width)
    (Resample.scaleOf whole.height m.height)
  let inner := whole.scaledTo resizer (Resample.fitSide scaling whole.width m.width scale)
    (Resample.fitSide scaling whole.height m.height scale)
    (Nat.le_max_left 1 _) (Nat.le_max_left 1 _)
  have hwidth : inner.width ≤ m.width := Nat.max_le.2 ⟨m.width_pos, Nat.min_le_right _ _⟩
  have hheight : inner.height ≤ m.height := Nat.max_le.2 ⟨m.height_pos, Nat.min_le_right _ _⟩
  have hscaled : ScaledFrom resizer whole inner := .inr rfl
  obtain ⟨left, right, top, bottom, hwindow, hborder⟩ := window_of_place hwidth hheight hpixels
  exact .fitted hscaled hwindow hborder

/-- A covering side is no shorter than the side of the target. -/
theorem broughtFrom_crop {whole m : Raster}
    (hpixels : m.pixels = Resample.pixels resizer scaling .crop whole.pixels whole.width
      whole.height m.width m.height pad) : BroughtFrom resizer whole m pad .crop := by
  let scale := Resample.greater (Resample.scaleOf whole.width m.width)
    (Resample.scaleOf whole.height m.height)
  have hwidth := Nat.le_max_right (scaling whole.width scale) m.width
  have hheight := Nat.le_max_right (scaling whole.height scale) m.height
  let outer := whole.scaledTo resizer (Resample.coverSide scaling whole.width m.width scale)
    (Resample.coverSide scaling whole.height m.height scale)
    (Nat.lt_of_lt_of_le m.width_pos hwidth) (Nat.lt_of_lt_of_le m.height_pos hheight)
  have hscaled : ScaledFrom resizer whole outer := .inr rfl
  have hwindow : ∃ left right top bottom, Window m outer left right top bottom :=
    window_of_cut hwidth hheight hpixels
  obtain ⟨left, right, top, bottom, hwindow⟩ := hwindow
  exact .cropped hscaled hwindow

theorem broughtFrom_pixels {whole m : Raster} (mode : ResizeMode)
    (hpixels : m.pixels = Resample.pixels resizer scaling mode whole.pixels whole.width whole.height
      m.width m.height pad) : BroughtFrom resizer whole m pad mode := by
  cases mode with
  | stretch => exact .stretched (.inr hpixels)
  | fit => exact broughtFrom_fit hpixels
  | crop => exact broughtFrom_crop hpixels

theorem exists_resampleWith (resizer : Resample.Resizer) (scaling : Resample.Scaling) (s : Source)
    (mode : ResizeMode) (pad : Rgba) (hw : 0 < width) (hh : 0 < height) :
    ∃ image, s.resampleWith resizer scaling width height mode pad = .ok image ∧
      image.width = width ∧ image.height = height ∧
      BroughtFrom resizer (ofSource s) image pad mode := by
  by_cases hsame : s.width = width ∧ s.height = height
  · obtain ⟨rfl, rfl⟩ := hsame
    exact ⟨_, resampleWith_self resizer scaling s mode pad, rfl, rfl,
      broughtFrom_self resizer _ pad mode⟩
  · rw [resampleWith, dif_pos hw, dif_pos hh]
    exact ⟨_, if_neg hsame, rfl, rfl, broughtFrom_pixels mode rfl⟩

theorem resampleWith_eq_error_iff {e : RasterError} :
    s.resampleWith resizer scaling width height mode pad = .error e ↔
      (width = 0 ∨ height = 0) ∧ e = .invalidDimensions width height := by
  by_cases hzero : width = 0 ∨ height = 0
  · rw [resampleWith_of_zero hzero]
    constructor
    · rintro ⟨⟩
      exact ⟨hzero, rfl⟩
    · rintro ⟨-, rfl⟩
      rfl
  · have hw : 0 < width := by omega
    have hh : 0 < height := by omega
    obtain ⟨image, himage, -⟩ := exists_resampleWith resizer scaling s mode pad hw hh
    rw [himage]
    constructor
    · rintro ⟨⟩
    · rintro ⟨hzero', -⟩
      exact absurd hzero' hzero

/-- Bringing a source to a size fails only if a side of it is zero.  Otherwise the image has just
that size, and it is the source scaled, framed or cropped as the mode says, however images are
scaled and whatever sides are found in between. -/
theorem resampleWith_in_bounds (resizer : Resample.Resizer) (scaling : Resample.Scaling)
    (s : Source) (width height : Nat) (mode : ResizeMode) (pad : Rgba) :
    (∀ e, s.resampleWith resizer scaling width height mode pad = .error e ↔
      (width = 0 ∨ height = 0) ∧ e = .invalidDimensions width height) ∧
    (0 < width → 0 < height → ∃ image,
      s.resampleWith resizer scaling width height mode pad = .ok image ∧
      image.width = width ∧ image.height = height ∧ image.pixels.length = width * height ∧
      BroughtFrom resizer (ofSource s) image pad mode) := by
  refine ⟨fun _ => resampleWith_eq_error_iff, ?_⟩
  intro hw hh
  obtain ⟨image, himage, hwidth, hheight, hbrought⟩ :=
    exists_resampleWith resizer scaling s mode pad hw hh
  refine ⟨image, himage, hwidth, hheight, ?_, hbrought⟩
  rw [image.length_pixels, hwidth, hheight]

/-- A red pixel beside a green one. -/
def stamp : Source where
  width := 2
  height := 1
  bytes := [200, 0, 0, 255, 0, 200, 0, 255]
  width_pos := Nat.two_pos
  height_pos := Nat.one_pos
  enough := by decide

/-- On a gray sheet with four columns and three rows the stamp, which is not enlarged, has a border
on all sides; a sheet without columns is refused. -/
theorem stamp_framed : 0 < 4 ∧ 0 < 3 ∧
    (∃ image, stamp.resampleWith Resample.lanczos (fun side _ => side) 4 3 .fit
        (Rgba.solid 9 9 9) = .ok image ∧
      BroughtFrom Resample.lanczos (ofSource stamp) image (Rgba.solid 9 9 9) .fit ∧
      image.pixels = List.replicate 5 (Rgba.solid 9 9 9) ++
        [Rgba.solid 200 0 0, Rgba.solid 0 200 0] ++ List.replicate 5 (Rgba.solid 9 9 9)) ∧
    stamp.resampleWith Resample.lanczos (fun side _ => side) 0 3 .fit (Rgba.solid 9 9 9) =
      .error (.invalidDimensions 0 3) := by
  refine ⟨by decide, by decide, ?_, ?_⟩
  · obtain ⟨image, himage, -, -, -, hbrought⟩ := (resampleWith_in_bounds Resample.lanczos
      (fun side _ => side) stamp 4 3 .fit (Rgba.solid 9 9 9)).2 (by decide) (by decide)
    refine ⟨image, himage, hbrought, ?_⟩
    have hpixels : (stamp.resampleWith Resample.lanczos (fun side _ => side) 4 3 .fit
        (Rgba.solid 9 9 9)).map (·.pixels) = .ok (List.replicate 5 (Rgba.solid 9 9 9) ++
          [Rgba.solid 200 0 0, Rgba.solid 0 200 0] ++ List.replicate 5 (Rgba.solid 9 9 9)) := by
      decide +kernel
    rw [himage] at hpixels
    exact Except.ok.inj hpixels
  · exact ((resampleWith_in_bounds Resample.lanczos (fun side _ => side) stamp 0 3 .fit
      (Rgba.solid 9 9 9)).1 _).2 ⟨.inl rfl, rfl⟩

end Source

end PaletteBitmap

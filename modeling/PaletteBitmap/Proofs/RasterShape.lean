import Mathlib
import PaletteBitmap.Proofs.Failures
import PaletteBitmap.Proofs.Framing

/-!
# The shape of rasters

A raster is made in one of three ways: of pixels, whose number is checked; of a source, whose bytes
may be more than its size needs; or by bringing a source to a size.  Whichever it was, the raster has
the size that was asked for, and just as many pixels as that (`Raster.Made.shaped`).

So nothing that would have to be done about a raster of another shape is ever done.  Its bytes fill an
image buffer, where too few would leave a blank one.  Read as a source they give the raster back, and
so they do with other bytes behind them.  And there are always pixels to quantize.
-/

namespace PaletteBitmap

/-- Any size and bytes that a source can have are wrapped as that source. -/
theorem Source.ofBytes_eq_ok_iff {width height : Nat} {bytes : List UInt8} {s : Source} :
    Source.ofBytes width height bytes = .ok s ↔
      s.width = width ∧ s.height = height ∧ s.bytes = bytes := by
  rw [Source.ofBytes]
  constructor
  · intro h
    split at h
    · split at h
      · cases h
        exact ⟨rfl, rfl, rfl⟩
      · cases h
    · cases h
  · rintro ⟨rfl, rfl, rfl⟩
    rw [dif_pos s.enough, dif_pos ⟨s.width_pos, s.height_pos⟩]

namespace Raster

/-! ## Ways of making rasters -/

/-- A raster that was made when one of some size was asked for. -/
inductive Made : Raster → Nat → Nat → Prop where
  | pixels {width height : Nat} {pixels : List Rgba} {m : Raster}
      (h : ofPixels width height pixels = .ok m) : Made m width height
  | source (s : Source) : Made (ofSource s) s.width s.height
  | bytes {width height : Nat} {bytes : List UInt8} {s : Source}
      (h : Source.ofBytes width height bytes = .ok s) : Made (ofSource s) width height
  | resampled {resizer : Resample.Resizer} {scaling : Resample.Scaling} {s : Source}
      {width height : Nat} {mode : ResizeMode} {pad : Rgba} {m : Raster}
      (h : s.resampleWith resizer scaling width height mode pad = .ok m) : Made m width height

/-- A raster of a size, with sides that are not zero and a pixel for every place. -/
structure Shaped (m : Raster) (width height : Nat) : Prop where
  width_eq : m.width = width
  height_eq : m.height = height
  width_pos : 0 < width
  height_pos : 0 < height
  length_eq : m.pixels.length = width * height

variable {m : Raster} {width height : Nat}

theorem shaped_self (m : Raster) : m.Shaped m.width m.height :=
  ⟨rfl, rfl, m.width_pos, m.height_pos, m.length_pixels⟩

theorem shaped_of_ofPixels {pixels : List Rgba} (h : ofPixels width height pixels = .ok m) :
    m.Shaped width height := by
  rw [ofPixels] at h
  split at h
  · split at h
    · cases h
      exact shaped_self _
    · cases h
  · cases h

theorem shaped_of_resampleWith {resizer : Resample.Resizer} {scaling : Resample.Scaling}
    {s : Source} {mode : ResizeMode} {pad : Rgba}
    (h : s.resampleWith resizer scaling width height mode pad = .ok m) :
    m.Shaped width height := by
  rcases Nat.eq_zero_or_pos width with hzero | hwidth
  · rw [Source.resampleWith_of_zero (.inl hzero)] at h
    cases h
  rcases Nat.eq_zero_or_pos height with hzero | hheight
  · rw [Source.resampleWith_of_zero (.inr hzero)] at h
    cases h
  obtain ⟨image, himage, rfl, rfl, -⟩ :=
    Source.exists_resampleWith resizer scaling s mode pad hwidth hheight
  rw [himage] at h
  cases h
  exact shaped_self _

theorem Made.shaped (h : m.Made width height) : m.Shaped width height := by
  cases h with
  | pixels h => exact shaped_of_ofPixels h
  | source s => exact shaped_self (ofSource s)
  | bytes h =>
      obtain ⟨rfl, rfl, -⟩ := Source.ofBytes_eq_ok_iff.1 h
      exact shaped_self _
  | resampled h => exact shaped_of_resampleWith h

/-! ## Image buffers -/

/-- Bytes as the buffer of an image, if there are enough for its size. -/
def buffer? (width height : Nat) (bytes : List UInt8) : Option (List UInt8) :=
  if width * height * 4 ≤ bytes.length then some bytes else none

/-- The buffer of an image: the bytes of its pixels, or all zeros if they do not fill it. -/
def buffer (m : Raster) : List UInt8 :=
  (buffer? m.width m.height m.toBytes).getD (List.replicate (m.width * m.height * 4) 0)

theorem length_toBytes (m : Raster) : m.toBytes.length = m.width * m.height * 4 := by
  rw [toBytes, Rgba.length_listToBytes, m.length_pixels]

theorem buffer?_toBytes (m : Raster) : buffer? m.width m.height m.toBytes = some m.toBytes :=
  if_pos (Nat.le_of_eq m.length_toBytes.symm)

theorem buffer_eq_toBytes (m : Raster) : m.buffer = m.toBytes := by
  rw [buffer, buffer?_toBytes, Option.getD_some]

/-- The bytes of a raster as a source, with other bytes behind them. -/
def toSource (m : Raster) (more : List UInt8) : Source where
  width := m.width
  height := m.height
  bytes := m.toBytes ++ more
  width_pos := m.width_pos
  height_pos := m.height_pos
  enough := by
    rw [List.length_append, length_toBytes]
    exact Nat.le_add_right _ _

/-- What is behind the bytes of the pixels is not looked at. -/
theorem ofSource_toSource (m : Raster) (more : List UInt8) : ofSource (m.toSource more) = m := by
  have hpixels : (ofSource (m.toSource more)).pixels = m.pixels := by
    change Rgba.listOfBytes ((m.toBytes ++ more).take (m.width * m.height * 4)) = m.pixels
    rw [List.take_append_of_le_length (Nat.le_of_eq m.length_toBytes.symm), ← length_toBytes,
      List.take_length, toBytes, Rgba.listOfBytes_listToBytes]
  cases m
  exact Raster.mk.injEq .. |>.mpr ⟨rfl, rfl, hpixels⟩

/-! ## Main statement -/

/-- However a raster was made, it has the size asked for, with sides that are not zero and a pixel for
every place.  Hence its bytes fill an image buffer, any source that begins with them is read as the
raster again, and no quantizer finds it empty. -/
theorem made_well_shaped (h : m.Made width height) :
    m.Shaped width height ∧
      buffer? width height m.toBytes = some m.buffer ∧
      (∀ more, ∃ s, Source.ofBytes width height (m.buffer ++ more) = .ok s ∧ ofSource s = m) ∧
      ∀ dist depth options, quantizeWith dist m.pixels depth options ≠ .error .emptyImage := by
  have hshaped := h.shaped
  obtain ⟨rfl, rfl, -⟩ := hshaped
  refine ⟨h.shaped, ?_, ?_, ?_⟩
  · rw [buffer_eq_toBytes, buffer?_toBytes]
  · intro more
    rw [buffer_eq_toBytes]
    exact ⟨m.toSource more, Source.ofBytes_eq_ok_iff.2 ⟨rfl, rfl, rfl⟩, m.ofSource_toSource more⟩
  · intro dist depth options hempty
    cases Quantize.quantizeWith_eq_error_iff.1 hempty with
    | empty _ hnil => exact m.pixels_ne_nil hnil

/-- A raster of two pixels, read from a buffer with a byte to spare. -/
theorem spare_byte_well_shaped : ∃ s : Source, ∃ m : Raster,
    Source.ofBytes 2 1 [255, 0, 0, 255, 0, 0, 255, 128, 7] = .ok s ∧ ofSource s = m ∧
      m.pixels = [⟨255, 0, 0, 255⟩, ⟨0, 0, 255, 128⟩] ∧
      (m.Shaped 2 1 ∧
        buffer? 2 1 m.toBytes = some m.buffer ∧
        (∀ more, ∃ s, Source.ofBytes 2 1 (m.buffer ++ more) = .ok s ∧ ofSource s = m) ∧
        ∀ dist depth options, quantizeWith dist m.pixels depth options ≠ .error .emptyImage) := by
  have hread : Source.ofBytes 2 1 [255, 0, 0, 255, 0, 0, 255, 128, 7] = .ok
      ⟨2, 1, [255, 0, 0, 255, 0, 0, 255, 128, 7], by decide, by decide, by decide⟩ := rfl
  exact ⟨_, _, hread, rfl, by decide, made_well_shaped (.bytes hread)⟩

end Raster

end PaletteBitmap

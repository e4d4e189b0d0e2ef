import Mathlib
import PaletteBitmap.Conversion.External
import PaletteBitmap.Proofs.Conversion

/-!
# What the check of a pair accepts

`PairForm.check` looks at bytes only.  `PairForm.Admits` says what it looks for, without the order
in which it looks: whole rows, whole entries in the bounds of the depth and of the request, and
no pixel past the end of the palette.  The check succeeds exactly where this holds.

The built-in encoder only yields such pairs, so a program that encodes as it does is never turned
down.
-/

namespace PaletteBitmap

namespace PairForm

/-- Two payloads that make up an image of `width * height` pixels with a palette of `entries`
entries. -/
structure Admits (f : PairForm) (width height : Nat) (s : EncodeSettings)
    (image palette : List UInt8) (entries : Nat) : Prop where
  image_length : image.length = s.depth.stride width * height
  palette_length : palette.length = entries * f.format.entrySize
  entries_pos : 1 ≤ entries
  entries_le : entries ≤ s.depth.capacity
  entries_le_count : 0 < s.count → f.pad = false → entries ≤ s.count
  mapped : ∃ bitmap, PackedBitmap.ofBytes image width height s.depth f.order = .ok bitmap ∧
    ∀ i ∈ bitmap.unpack, i.toNat < entries

variable {f : PairForm} {width height : Nat} {s : EncodeSettings} {image palette : List UInt8}
  {entries : Nat}

theorem Admits.check_eq_ok (h : f.Admits width height s image palette entries) :
    f.check width height s image palette = .ok entries := by
  obtain ⟨bitmap, hbitmap, hmapped⟩ := h.mapped
  have hlength : palette.length / f.format.entrySize = entries := by
    rw [h.palette_length, Nat.mul_div_cancel _ f.format.entrySize_pos]
  have hpartial : ¬ (palette.isEmpty = true ∨ palette.length % f.format.entrySize ≠ 0) := by
    rw [h.palette_length, Nat.mul_mod_left, List.isEmpty_iff_length_eq_zero, h.palette_length]
    have hpos := Nat.mul_pos h.entries_pos f.format.entrySize_pos
    omega
  have hover : ¬ s.depth.capacity < entries := Nat.not_lt.2 h.entries_le
  have hunwanted : ¬ (0 < s.count ∧ f.pad = false ∧ s.count < entries) := by
    rintro ⟨hcount, hpad, hlt⟩
    exact Nat.not_lt.2 (h.entries_le_count hcount hpad) hlt
  have hnone := find?_eq_none_iff_lt.2 hmapped
  simp only [check, hlength, if_neg (not_not_intro h.image_length), if_neg hpartial, if_neg hover,
    if_neg hunwanted, hbitmap, hnone]

theorem admits_of_check (h : f.check width height s image palette = .ok entries) :
    f.Admits width height s image palette entries := by
  simp only [check] at h
  -- Each test that is passed says one thing about the pair.
  split at h
  · cases h
  rename_i himage
  split at h
  · cases h
  rename_i hpartial
  split at h
  · cases h
  rename_i hover
  split at h
  · cases h
  rename_i hunwanted
  split at h
  · cases h
  rename_i bitmap hbitmap
  split at h
  · cases h
  rename_i hnone
  cases h
  obtain ⟨hempty, hwhole⟩ := not_or.1 hpartial
  have hlength : palette.length = palette.length / f.format.entrySize * f.format.entrySize :=
    (Nat.div_mul_cancel (Nat.dvd_of_mod_eq_zero (not_not.1 hwhole))).symm
  refine ⟨not_not.1 himage, hlength, ?_, Nat.not_lt.1 hover, ?_, bitmap, hbitmap,
    find?_eq_none_iff_lt.1 hnone⟩
  · rw [List.isEmpty_iff_length_eq_zero] at hempty
    apply Nat.pos_of_ne_zero
    intro hzero
    rw [hzero, Nat.zero_mul] at hlength
    exact hempty hlength
  · intro hcount hpad
    exact Nat.not_lt.1 fun hlt => hunwanted ⟨hcount, hpad, hlt⟩

/-- The check succeeds for just the pairs that it should, with the entries of the palette. -/
theorem check_eq_ok_iff : f.check width height s image palette = .ok entries ↔
    f.Admits width height s image palette entries :=
  ⟨admits_of_check, Admits.check_eq_ok⟩

end PairForm

/-! ## Pairs of the built-in encoder -/

variable {o : ConversionOptions} {image : Raster} {s : EncodeSettings} {pair : EncodedPair}

/-- The form in which the built-in encoder writes. -/
def ConversionOptions.form (o : ConversionOptions) : PairForm := ⟨o.format, o.order, o.pad⟩

theorem ConversionOptions.admits_of_encode (h : o.encode image s = .ok pair) :
    o.form.Admits image.width image.height s pair.image pair.palette pair.entries := by
  have hfits := fits_of_encode h
  rw [encode] at h
  split at h
  · cases h
  rename_i assets hassets
  cases h
  obtain ⟨q, hq⟩ := Encoder.exists_quantize hassets
  obtain ⟨packed, hencode, hencodes⟩ := Encoder.exists_encodes_of_quantize hq
  obtain rfl : packed = assets := Except.ok.inj (hencode.symm.trans hassets)
  -- Padding only adds entries to those of the palette.
  have hsize : q.palette.size ≤ packed.paletteBytes.length / o.format.entrySize := by
    have hlength := Palette.length_toBytes
      ((o.encoder s).fileSize_lt (Quantize.size_le_capacity hq))
    rw [hencodes.paletteBytes_eq, hlength]
    calc
      q.palette.size ≤ (o.encoder s).layout.entryCount q.palette.size := Nat.le_max_right _ _
      _ = _ := (Nat.mul_div_cancel _ o.format.entrySize_pos).symm
  refine ⟨hfits.image, hfits.palette, hfits.entries_pos, hfits.entries_le, hfits.entries_le_count,
    packed.bitmap, hencodes.ofBytes_eq, ?_⟩
  intro i hi
  rw [hencodes.unpack_eq] at hi
  have hdraws := Quantize.draws_of_quantizeWith hq
  exact Nat.lt_of_lt_of_le (hdraws.index_lt (Quantize.size_le_256 hq) hi) hsize

/-- What the built-in encoder yields passes the check of an encoder that is a program and writes
in the same form, and is found to have as many palette entries as the encoder says. -/
theorem ExternalEncoder.check_encode {e : ExternalEncoder} (hform : e.form = o.form)
    (h : o.encode image s = .ok pair) :
    e.form.check image.width image.height s pair.image pair.palette = .ok pair.entries := by
  rw [hform]
  exact (ConversionOptions.admits_of_encode h).check_eq_ok

/-- Four pixels that are to share one color. -/
def reddish : Raster where
  width := 2
  height := 2
  pixels := [⟨250, 0, 0, 255⟩, ⟨0, 255, 0, 0⟩, ⟨255, 0, 0, 255⟩, ⟨250, 0, 0, 255⟩]
  width_pos := by decide
  height_pos := by decide
  length_pixels := by decide

/-- Words for the palette, and two of them although one color is asked for. -/
def wordOptions : ConversionOptions := { order := .highFirst, format := .psx16, pad := true }

/-- A program that writes in the form of `wordOptions`. -/
def wordProgram : ExternalEncoder := ⟨⟨"encode"⟩, [], ⟨.psx16, .highFirst, true⟩⟩

theorem check_reddish : wordProgram.form = wordOptions.form ∧
    wordOptions.encode reddish ⟨.one, 1, by decide⟩ = .ok ⟨[0, 0], [31, 0, 0, 0], 2⟩ ∧
      wordProgram.form.check 2 2 ⟨.one, 1, by decide⟩ [0, 0] [31, 0, 0, 0] = .ok 2 := by
  have hencode : wordOptions.encode reddish ⟨.one, 1, by decide⟩ = .ok ⟨[0, 0], [31, 0, 0, 0], 2⟩ := by
    cbv
  exact ⟨rfl, hencode, ExternalEncoder.check_encode rfl hencode⟩

end PaletteBitmap

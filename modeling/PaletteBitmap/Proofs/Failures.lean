import PaletteBitmap.Proofs.Conversion
import PaletteBitmap.Proofs.GuardedRun
import PaletteBitmap.Proofs.Lossless

/-!
# When encoding fails

There are three reasons to refuse an image (`Quantize.Refuses`), and an image that is not refused
is quantized.  Two of them never come from the built-in encoder of a conversion: its settings were
checked against the depth before, and a raster has pixels.  What is quantized can always be packed.

Nor is there any other way to fail.  That a palette is found to be empty, or to hold a color twice,
is already excluded by what `quantizeWith` answers; that tables are never left and words never
overrun is said by the guarded run, which would have no result.
-/

namespace PaletteBitmap

namespace Quantize

/-- The reasons to refuse an image.  A count that is too large is told before all others. -/
inductive Refuses (pixels : List Rgba) (depth : BitDepth) (options : QuantizeOptions) :
    EncodeError → Prop where
  | count : depth.capacity < options.count →
      Refuses pixels depth options (.invalidQuantizeCount options.count depth.capacity)
  | empty : options.count ≤ depth.capacity → pixels = [] →
      Refuses pixels depth options .emptyImage
  | colors : options.count = 0 → pixels ≠ [] → depth.capacity < pixels.toFinset.card →
      Refuses pixels depth options (.paletteOverflow pixels.toFinset.card depth.capacity)

variable {dist : Perceptual → Perceptual → Float32} {pixels : List Rgba} {depth : BitDepth}
  {options : QuantizeOptions} {e : EncodeError}

theorem refuses_or_accepts (pixels : List Rgba) (depth : BitDepth) (options : QuantizeOptions) :
    (∃ e, Refuses pixels depth options e) ∨ Accepts pixels depth options := by
  by_cases hcount : depth.capacity < options.count
  · exact .inl ⟨_, .count hcount⟩
  have hle : options.count ≤ depth.capacity := Nat.not_lt.1 hcount
  by_cases hnil : pixels = []
  · exact .inl ⟨_, .empty hle hnil⟩
  by_cases hcolors : options.count = 0 ∧ depth.capacity < pixels.toFinset.card
  · exact .inl ⟨_, .colors hcolors.1 hnil hcolors.2⟩
  · refine .inr ⟨hle, hnil, ?_⟩
    intro hzero
    rw [FirstUse.length_eraseDups]
    exact Nat.not_lt.1 fun hlt => hcolors ⟨hzero, hlt⟩

theorem Refuses.quantizeWith_eq (h : Refuses pixels depth options e) :
    quantizeWith dist pixels depth options = .error e := by
  cases h with
  | count hlt => rw [quantizeWith, if_pos hlt]
  | empty hle hnil =>
      subst hnil
      rw [quantizeWith, if_neg (Nat.not_lt.2 hle)]
      rfl
  | colors hzero hne hlt =>
      have hle : ¬ depth.capacity < options.count := by
        rw [hzero]
        exact Nat.not_lt_zero _
      have hnil : ¬ pixels.isEmpty = true := by simpa using hne
      have hsize : (Histogram.ofPixels pixels).size = pixels.toFinset.card := by
        rw [Histogram.size_ofPixels, FirstUse.length_eraseDups]
      rw [quantizeWith, if_neg hle, if_neg hnil]
      simp only [hsize, if_pos (And.intro hzero hlt)]

theorem quantizeWith_eq_error_iff :
    quantizeWith dist pixels depth options = .error e ↔ Refuses pixels depth options e := by
  constructor
  · intro h
    rcases refuses_or_accepts pixels depth options with ⟨e', hrefused⟩ | haccepts
    · rw [hrefused.quantizeWith_eq] at h
      cases h
      exact hrefused
    · -- What is accepted is quantized, so there is no failure to explain.
      obtain ⟨q, hq, -⟩ := haccepts.exists_draws dist
      rw [h] at hq
      cases hq
  · exact Refuses.quantizeWith_eq

end Quantize

/-! ## Encoders -/

theorem Raster.pixels_ne_nil (image : Raster) : image.pixels ≠ [] := by
  rw [← List.length_pos_iff, image.length_pixels]
  exact Nat.mul_pos image.width_pos image.height_pos

/-- An encoder fails only where quantizing does: what was quantized is packed. -/
theorem Encoder.encode_eq_error_iff {encoder : Encoder} {image : Raster} {e : EncodeError} :
    encoder.encode image = .error e ↔
      Quantize.Refuses image.pixels encoder.depth encoder.options e := by
  rw [← Quantize.quantizeWith_eq_error_iff]
  change _ ↔ quantize image.pixels encoder.depth encoder.options = .error e
  cases hq : quantize image.pixels encoder.depth encoder.options with
  | error cause => simp only [encode, index, hq, Except.error.injEq]
  | ok q =>
      obtain ⟨assets, hassets, -⟩ := exists_encodes_of_quantize hq
      rw [hassets]
      constructor <;> intro h <;> cases h

theorem ConversionOptions.encode_eq_error_iff {o : ConversionOptions} {image : Raster}
    {s : EncodeSettings} {e : ConvertError} :
    o.encode image s = .error e ↔
      s.count = 0 ∧ s.depth.capacity < image.pixels.toFinset.card ∧
        e = .paletteOverflow image.pixels.toFinset.card s.depth.bits s.depth.capacity := by
  constructor
  · intro h
    rw [encode] at h
    split at h
    · next cause hcause =>
      cases h
      cases Encoder.encode_eq_error_iff.1 hcause with
      | count hlt => exact absurd s.count_le (Nat.not_le.2 hlt)
      | empty _ hnil => exact absurd hnil image.pixels_ne_nil
      | colors hzero _ hlt => exact ⟨hzero, hlt, rfl⟩
    · cases h
  · rintro ⟨hzero, hlt, rfl⟩
    have hrefused : (o.encoder s).encode image = .error _ :=
      Encoder.encode_eq_error_iff.2 (.colors hzero image.pixels_ne_nil hlt)
    rw [encode, hrefused]
    rfl

/-! ## Main statement -/

/-- Encoding fails as it is told to and in no other way: no guard is ever broken, quantizing fails
for just the three reasons, and with the settings of a conversion only one of them is left. -/
theorem encoding_failures (dist : Perceptual → Perceptual → Float32) {pixels : List Rgba}
    (depth : BitDepth) (options : QuantizeOptions) (h : pixels.length < 2 ^ 32) :
    Guarded.quantize dist pixels depth options = some (quantizeWith dist pixels depth options) ∧
      (∀ e, quantizeWith dist pixels depth options = .error e ↔
        Quantize.Refuses pixels depth options e) ∧
      ∀ (o : ConversionOptions) (image : Raster) (bits count : Nat) (s : EncodeSettings),
        EncodeSettings.ofRaw bits count = .ok s → ∀ e, o.encode image s = .error e ↔
          count = 0 ∧ 2 ^ bits < image.pixels.toFinset.card ∧
            e = .paletteOverflow image.pixels.toFinset.card bits (2 ^ bits) := by
  refine ⟨Guarded.quantize_eq_some h, fun e => Quantize.quantizeWith_eq_error_iff, ?_⟩
  intro o image bits count s hs e
  obtain ⟨rfl, rfl⟩ := EncodeSettings.eq_of_ofRaw hs
  exact ConversionOptions.encode_eq_error_iff

/-- Three colors, one more than a single bit can tell apart. -/
def primaries : List Rgba := [⟨255, 0, 0, 255⟩, ⟨0, 255, 0, 255⟩, ⟨0, 0, 255, 255⟩]

theorem primaries_refused : primaries.length < 2 ^ 32 ∧
    Guarded.quantize Perceptual.distance primaries .one { count := 0 } =
      some (.error (.paletteOverflow 3 2)) ∧
    ∃ image s, image.pixels = primaries ∧ EncodeSettings.ofRaw 1 0 = .ok s ∧
      ConversionOptions.encode {} image s = .error (.paletteOverflow 3 1 2) := by
  have hlen : primaries.length < 2 ^ 32 := by decide
  obtain ⟨hguarded, hquantize, hencode⟩ :=
    encoding_failures Perceptual.distance .one { count := 0 } hlen
  have hcard : primaries.toFinset.card = 3 := by decide
  have hrefused : quantizeWith Perceptual.distance primaries .one { count := 0 } =
      .error (.paletteOverflow 3 2) :=
    (hquantize _).2 (.colors rfl (by decide) (by decide))
  refine ⟨hlen, by rw [hguarded, hrefused], ⟨3, 1, primaries, by decide, by decide, by decide⟩,
    ⟨.one, 0, by decide⟩, rfl, rfl, ?_⟩
  rw [hencode _ _ 1 0 _ rfl, hcard]
  exact ⟨rfl, by decide, rfl⟩

end PaletteBitmap

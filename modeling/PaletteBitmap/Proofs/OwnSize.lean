import Mathlib
import PaletteBitmap.Proofs.Conversion
import PaletteBitmap.Proofs.Framing

/-!
# Conversions at the source's own size

A conversion that asks for the size its source has already, and one that asks for no size, do the
same (`Pipeline.runWith_own_size`).  They check their requests in different ways and come to the
image by different ways, so the agreement is shown stage by stage: the check lets the same requests
through and refuses the others for the same reasons, and the images are the same whatever the mode
and the color of the border.  What follows is one function of these.
-/

namespace PaletteBitmap

/-! ## The check of a request -/

namespace ConversionRequest

/-- The same request at some size. -/
def atSize (r : ConversionRequest) (size : Option (Nat × Nat)) : ConversionRequest :=
  { r with size := size }

variable (r : ConversionRequest) (size : Option (Nat × Nat))

@[simp]
theorem atSize_size : (r.atSize size).size = size := rfl

@[simp]
theorem atSize_settings : (r.atSize size).settings = r.settings := rfl

@[simp]
theorem atSize_paths : (r.atSize size).paths = r.paths := rfl

end ConversionRequest

namespace ConversionParams

variable {width height : Nat}

theorem checkSize_of_pos (hw : 0 < width) (hh : 0 < height) :
    checkSize (some (width, height)) = .ok () :=
  if_neg (by omega)

/-- To ask for a size with no side of zero makes no difference to the check: it fails as it does
without a size, or lets the same request through at that size. -/
theorem validate_of_pos (w : Workspace) (bits count : Nat) (paths : Endpoints) (hw : 0 < width)
    (hh : 0 < height) :
    validate w ⟨some (width, height), bits, count, paths⟩ =
      (validate w ⟨none, bits, count, paths⟩).map (·.atSize (some (width, height))) := by
  have hnone : checkSize none = .ok () := rfl
  simp only [validate, checkSize_of_pos hw hh, hnone]
  cases EncodeSettings.ofRaw bits count with
  | error e => rfl
  | ok s =>
      cases paths.check w with
      | error e => rfl
      | ok _ => rfl

end ConversionParams

namespace Pipeline

variable {decode : Decoder} {resizer : Resample.Resizer} {p : Pipeline} {w : Workspace}
  {request : ConversionRequest} {source : Source}

/-! ## The image that is encoded -/

theorem canonical_own_size (resizer : Resample.Resizer) (p : Pipeline) (source : Source) :
    p.canonical resizer source (some (source.width, source.height)) =
      p.canonical resizer source none :=
  Source.resampleWith_self resizer Resample.scaled source p.options.mode p.options.padColor

theorem prepareWith_own_size
    (hsource : Source.ofFileWith decode w request.paths.source = .ok source) :
    p.prepareWith decode resizer w (request.atSize (some (source.width, source.height))) =
      p.prepareWith decode resizer w (request.atSize none) := by
  simp only [prepareWith, ConversionRequest.atSize_paths, ConversionRequest.atSize_size, hsource,
    canonical_own_size]

/-- A request that was made without a size has none after the check. -/
theorem atSize_none_of_validate {bits count : Nat} {paths : Endpoints}
    (h : ConversionParams.validate w ⟨none, bits, count, paths⟩ = .ok request) :
    request.atSize none = request ∧ request.paths = paths := by
  obtain ⟨s, -, -, rfl⟩ := ConversionParams.exists_of_validate h
  exact ⟨rfl, rfl⟩

/-! ## Main statement -/

/-- For a source that can be read, to convert at its own size is to encode it as it is: in every
mode and with every color of the border, the report or the error is the same, and so is the
workspace afterwards. -/
theorem runWith_own_size (decode : Decoder) (resizer : Resample.Resizer) (p : Pipeline)
    (runner : Runner) (w : Workspace) (bits count : Nat) (paths : Endpoints) {source : Source}
    (hsource : Source.ofFileWith decode w paths.source = .ok source) :
    p.runWith decode resizer runner w ⟨some (source.width, source.height), bits, count, paths⟩ =
      p.runWith decode resizer runner w ⟨none, bits, count, paths⟩ := by
  have hcheck := ConversionParams.validate_of_pos w bits count paths source.width_pos
    source.height_pos
  cases hvalid : ConversionParams.validate w ⟨none, bits, count, paths⟩ with
  | error e =>
      rw [hvalid] at hcheck
      simp only [runWith, hvalid, hcheck, Except.map]
  | ok request =>
      rw [hvalid] at hcheck
      obtain ⟨hnone, rfl⟩ := atSize_none_of_validate hvalid
      have hprepare : p.prepareWith decode resizer w
          (request.atSize (some (source.width, source.height))) =
            p.prepareWith decode resizer w request := by
        rw [prepareWith_own_size hsource, hnone]
      simp only [runWith, hvalid, hcheck, Except.map, hprepare, ConversionRequest.atSize_settings,
        ConversionRequest.atSize_paths]

/-- The picture of one pixel is written, and not framed, when it is fitted to its own size. -/
theorem dot_at_own_size :
    Source.ofFileWith Source.decode dotted ⟨"s"⟩ =
        .ok ⟨1, 1, [7, 7, 7, 255], by decide, by decide, by decide⟩ ∧
      runWith Source.decode Resample.lanczos ⟨{ mode := .fit, padColor := Rgba.solid 9 9 9 },
          .builtIn⟩ idle dotted ⟨some (1, 1), 1, 0, ⟨⟨"s"⟩, ⟨"i"⟩, ⟨"p"⟩⟩⟩ =
        runWith Source.decode Resample.lanczos ⟨{ mode := .fit, padColor := Rgba.solid 9 9 9 },
          .builtIn⟩ idle dotted (dotParams ⟨"i"⟩) ∧
      (runWith Source.decode Resample.lanczos ⟨{ mode := .fit, padColor := Rgba.solid 9 9 9 },
          .builtIn⟩ idle dotted (dotParams ⟨"i"⟩)).1 =
        .ok ⟨1, 1, .one, 1, 1, 4, (dotParams ⟨"i"⟩).outputs⟩ := by
  have hread : dotted.read (dotParams ⟨"i"⟩).paths.source = .ok dotFile := by cbv
  have hsource : Source.ofFileWith Source.decode dotted (dotParams ⟨"i"⟩).paths.source =
      .ok ⟨1, 1, [7, 7, 7, 255], by decide, by decide, by decide⟩ := by
    simp only [Source.ofFileWith, hread, decode_dotFile]
  have hvalid : (dotParams ⟨"i"⟩).validate dotted =
      .ok ⟨none, ⟨.one, 0, by decide⟩, (dotParams ⟨"i"⟩).paths⟩ := by cbv
  refine ⟨hsource, runWith_own_size Source.decode _ _ idle dotted 1 0 _ hsource, ?_⟩
  simp only [runWith, hvalid, prepareWith, hsource]
  cbv

end Pipeline

end PaletteBitmap

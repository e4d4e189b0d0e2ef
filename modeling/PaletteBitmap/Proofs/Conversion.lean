import Mathlib
import PaletteBitmap.Conversion.Pipeline
import PaletteBitmap.Proofs.Delivery
import PaletteBitmap.Proofs.Entries
import PaletteBitmap.Proofs.Lossless

/-!
# Conversions are all or nothing

Only the last stage of a conversion writes, so there are two ways through it (`runWith_cases`):
an early stage fails and the workspace is handed back, or all that is left to do is to encode
and to commit.  What is encoded fits the sizes that the report gives (`EncodedPair.Fits`), and a
commit delivers both files or changes nothing.
-/

namespace PaletteBitmap

/-! ## Sizes -/

/-- A pair has the sizes that an image needs: whole rows, whole entries, and no more entries
than the depth can tell apart or, without padding, than were asked for. -/
structure EncodedPair.Fits (pair : EncodedPair) (o : ConversionOptions) (s : EncodeSettings)
    (width height : Nat) : Prop where
  image : pair.image.length = s.depth.stride width * height
  palette : pair.palette.length = pair.entries * o.format.entrySize
  entries_pos : 1 ≤ pair.entries
  entries_le : pair.entries ≤ 2 ^ s.depth.bits
  entries_le_count : 0 < s.count → o.pad = false → pair.entries ≤ s.count

theorem Encoder.exists_quantize {e : Encoder} {image : Raster} {assets : EncodedImage}
    (h : e.encode image = .ok assets) :
    ∃ q, quantize image.pixels e.depth e.options = .ok q := by
  rw [encode, index] at h
  cases hq : quantize image.pixels e.depth e.options with
  | error cause => simp [hq] at h
  | ok q => exact ⟨q, rfl⟩

theorem ConversionOptions.fits_of_encode {o : ConversionOptions} {image : Raster}
    {s : EncodeSettings} {pair : EncodedPair} (h : o.encode image s = .ok pair) :
    pair.Fits o s image.width image.height := by
  rw [encode] at h
  split at h
  · cases h
  · rename_i assets hassets
    cases h
    obtain ⟨q, hq⟩ := Encoder.exists_quantize hassets
    obtain ⟨_, hencode, hencodes⟩ := Encoder.exists_encodes_of_quantize hq
    obtain rfl : _ = assets := Except.ok.inj (hencode.symm.trans hassets)
    have hcapacity : q.palette.size ≤ s.depth.capacity := Quantize.size_le_capacity hq
    have hlength := Palette.length_toBytes ((o.encoder s).fileSize_lt hcapacity)
    have hentries : (q.palette.toBytes (o.encoder s).layout).length / o.format.entrySize =
        (o.encoder s).layout.entryCount q.palette.size := by
      rw [hlength]
      exact Nat.mul_div_cancel _ o.format.entrySize_pos
    simp only [hencodes.paletteBytes_eq, hentries]
    refine ⟨hencodes.length_eq, hlength, ?_, ?_, ?_⟩
    · exact Nat.le_trans q.palette.size_pos (Nat.le_max_right _ _)
    · -- Padding goes up to what the depth can tell apart, and no palette has more.
      refine Nat.max_le.2 ⟨?_, hcapacity⟩
      cases hpad : o.pad with
      | true => simp [Encoder.layout, ConversionOptions.encoder, hpad, BitDepth.capacity]
      | false => simp [Encoder.layout, ConversionOptions.encoder, hpad]
    · intro hcount hpad
      have hsize : q.palette.size ≤ s.count := Quantize.size_le_count hq hcount
      simpa [PaletteLayout.entryCount, Encoder.layout, ConversionOptions.encoder, hpad] using hsize

theorem Source.size_of_resampleWith {resizer : Resample.Resizer} {scaling : Resample.Scaling}
    {source : Source} {width height : Nat} {mode : ResizeMode} {pad : Rgba} {image : Raster}
    (h : source.resampleWith resizer scaling width height mode pad = .ok image) :
    image.width = width ∧ image.height = height := by
  rw [resampleWith] at h
  split at h
  · split at h
    · dsimp only at h
      split at h
      · rename_i hsame
        cases h
        exact hsame
      · cases h
        exact ⟨rfl, rfl⟩
    · cases h
  · cases h

/-! ## Ways through a conversion -/

theorem BitDepth.bits_of_ofBits? {bits : Nat} {d : BitDepth} (h : ofBits? bits = some d) :
    d.bits = bits := by
  unfold ofBits? at h
  split at h
  all_goals cases h
  all_goals rfl

theorem EncodeSettings.eq_of_ofRaw {bits count : Nat} {s : EncodeSettings}
    (h : ofRaw bits count = .ok s) : s.depth.bits = bits ∧ s.count = count := by
  rw [ofRaw] at h
  split at h
  · cases h
  · rename_i d hd
    split at h
    · cases h
      exact ⟨BitDepth.bits_of_ofBits? hd, rfl⟩
    · cases h

theorem ConversionParams.exists_of_validate {params : ConversionParams} {w : Workspace}
    {request : ConversionRequest} (h : params.validate w = .ok request) :
    ∃ s, EncodeSettings.ofRaw params.bits params.count = .ok s ∧
      params.paths.check w = .ok () ∧ request = ⟨params.size, s, params.paths⟩ := by
  rw [validate] at h
  split at h
  · cases h
  · split at h
    · cases h
    · rename_i s hs
      split at h
      · cases h
      · rename_i hcheck
        cases h
        exact ⟨s, hs, hcheck, rfl⟩

/-- Where a conversion writes. -/
def ConversionParams.outputs (params : ConversionParams) : OutputPair :=
  ⟨params.paths.image, params.paths.palette⟩

namespace Pipeline

open Workspace OutputPair

variable {decode : Decoder} {resizer : Resample.Resizer} {p : Pipeline} {runner : Runner}
  {w w' : Workspace} {params : ConversionParams}

/-- The request passed its check, and the source was read and has the wanted size. -/
structure Prepared (decode : Decoder) (w : Workspace) (params : ConversionParams)
    (s : EncodeSettings) (image : Raster) : Prop where
  bits : s.depth.bits = params.bits
  count : s.count = params.count
  check : params.paths.check w = .ok ()
  size : ∃ source, Source.ofFileWith decode w params.paths.source = .ok source ∧
    (image.width, image.height) = params.size.getD (source.width, source.height)

theorem size_of_canonical {source : Source} {size : Option (Nat × Nat)} {image : Raster}
    (h : p.canonical resizer source size = .ok image) :
    (image.width, image.height) = size.getD (source.width, source.height) := by
  cases size with
  | none =>
      cases h
      rfl
  | some wanted =>
      obtain ⟨hwidth, hheight⟩ := Source.size_of_resampleWith h
      simp [hwidth, hheight]

theorem exists_of_prepareWith {request : ConversionRequest} {image : Raster}
    (h : p.prepareWith decode resizer w request = .ok image) :
    ∃ source, Source.ofFileWith decode w request.paths.source = .ok source ∧
      (image.width, image.height) = request.size.getD (source.width, source.height) := by
  rw [prepareWith] at h
  split at h
  · cases h
  · rename_i source hsource
    split at h
    · cases h
    · rename_i canonical hcanonical
      cases h
      exact ⟨source, hsource, size_of_canonical hcanonical⟩

/-- A conversion fails before it does anything, or encodes and writes what it has prepared. -/
theorem runWith_cases (decode : Decoder) (resizer : Resample.Resizer) (p : Pipeline)
    (runner : Runner) (w : Workspace) (params : ConversionParams) :
    (∃ e, p.runWith decode resizer runner w params = (.error e, w)) ∨
    ∃ s image, Prepared decode w params s image ∧
      p.runWith decode resizer runner w params = p.finish runner w image s params.outputs := by
  cases hrequest : params.validate w with
  | error e => exact .inl ⟨e, by simp [runWith, hrequest]⟩
  | ok request =>
      cases hprepare : p.prepareWith decode resizer w request with
      | error e => exact .inl ⟨e, by simp [runWith, hrequest, hprepare]⟩
      | ok image =>
          obtain ⟨s, hs, hcheck, rfl⟩ := ConversionParams.exists_of_validate hrequest
          obtain ⟨hbits, hcount⟩ := EncodeSettings.eq_of_ofRaw hs
          have hsize := exists_of_prepareWith hprepare
          refine .inr ⟨s, image, ⟨hbits, hcount, hcheck, hsize⟩, ?_⟩
          simp only [runWith, hrequest, hprepare, ConversionParams.outputs]

/-- What is left to do fails in the encoder, or ends as the commit of the encoded pair ends. -/
theorem finish_cases (p : Pipeline) (runner : Runner) (w : Workspace) (image : Raster)
    (s : EncodeSettings) (out : OutputPair) :
    (∃ e, p.finish runner w image s out = (.error e, (p.encode runner w image s).2)) ∨
    ∃ pair, (p.encode runner w image s).1 = .ok pair ∧
      ((∃ e w', commit (p.encode runner w image s).2 out pair.image pair.palette =
          (.error e, w') ∧ p.finish runner w image s out = (.error e, w')) ∨
        ∃ w', commit (p.encode runner w image s).2 out pair.image pair.palette = (.ok (), w') ∧
          p.finish runner w image s out = (.ok ⟨image.width, image.height, s.depth, pair.entries,
            pair.image.length, pair.palette.length, out⟩, w')) := by
  rcases hencode : p.encode runner w image s with ⟨e | pair, w₁⟩
  · exact .inl ⟨e, by simp [finish, hencode]⟩
  · refine .inr ⟨pair, rfl, ?_⟩
    rcases hcommit : commit w₁ out pair.image pair.palette with ⟨e | _, w₂⟩
    · exact .inl ⟨e, w₂, rfl, by simp [finish, hencode, hcommit]⟩
    · exact .inr ⟨w₂, rfl, by simp [finish, hencode, hcommit]⟩

/-! ## Main statement -/

/-- A report tells what was asked for and what the two files hold. -/
structure Describes (report : ConversionReport) (decode : Decoder) (o : ConversionOptions)
    (w : Workspace) (params : ConversionParams) (image palette : List UInt8) : Prop where
  outputs : report.outputs = params.outputs
  depth : report.depth.bits = params.bits
  size : ∃ source, Source.ofFileWith decode w params.paths.source = .ok source ∧
    (report.width, report.height) = params.size.getD (source.width, source.height)
  image : image.length = report.imageBytes
  imageBytes : report.imageBytes = report.depth.stride report.width * report.height
  palette : palette.length = report.paletteBytes
  paletteBytes : report.paletteBytes = report.entries * o.format.entrySize
  entries_pos : 1 ≤ report.entries
  entries_le : report.entries ≤ 2 ^ params.bits
  entries_le_count : 0 < params.count → o.pad = false → report.entries ≤ params.count

theorem Prepared.describes {o : ConversionOptions} {s : EncodeSettings} {image : Raster}
    {pair : EncodedPair} (h : Prepared decode w params s image)
    (hfits : pair.Fits o s image.width image.height) :
    Describes ⟨image.width, image.height, s.depth, pair.entries, pair.image.length,
      pair.palette.length, params.outputs⟩ decode o w params pair.image pair.palette where
  outputs := rfl
  depth := h.bits
  size := h.size
  image := rfl
  imageBytes := hfits.image
  palette := rfl
  paletteBytes := hfits.palette
  entries_pos := hfits.entries_pos
  entries_le := h.bits ▸ hfits.entries_le
  entries_le_count := h.count ▸ hfits.entries_le_count

/-- A conversion that fails changes nothing.  One that succeeds delivers two files, of just the
sizes that it reports, and changes nothing else. -/
theorem runWith_all_or_nothing (decode : Decoder) (resizer : Resample.Resizer)
    (o : ConversionOptions) (runner : Runner) (w : Workspace) (params : ConversionParams)
    (himage : w.NamesNoLink params.paths.image) (hpalette : w.NamesNoLink params.paths.palette) :
    (∀ e w', runWith decode resizer ⟨o, .builtIn⟩ runner w params = (.error e, w') →
      ∀ l, w'.tree.get? l = w.tree.get? l) ∧
    ∀ report w', runWith decode resizer ⟨o, .builtIn⟩ runner w params = (.ok report, w') →
      ∃ image palette, Delivered w w' params.outputs image palette ∧
        Describes report decode o w params image palette := by
  rcases runWith_cases decode resizer ⟨o, .builtIn⟩ runner w params with
    ⟨e, hrun⟩ | ⟨s, image, hprepared, hrun⟩
  -- An early stage fails and hands the workspace back.
  · rw [hrun]
    refine ⟨fun e' w' h => ?_, fun report w' h => by cases h⟩
    cases h
    exact fun _ => rfl
  · rw [hrun]
    rcases finish_cases ⟨o, .builtIn⟩ runner w image s params.outputs with
      ⟨e, hfinish⟩ | ⟨pair, hpair, ⟨e, w₁, hcommit, hfinish⟩ | ⟨w₁, hcommit, hfinish⟩⟩
    -- The encoder fails; it works in memory only.
    · rw [hfinish]
      refine ⟨fun e' w' h => ?_, fun report w' h => by cases h⟩
      cases h
      exact fun _ => rfl
    -- The commit fails and takes back what it did.
    · rw [hfinish]
      refine ⟨fun e' w' h => ?_, fun report w' h => by cases h⟩
      cases h
      exact commit_unchanged himage hcommit
    -- All stages succeed, and the check has made sure that there are two places.
    · rw [hfinish]
      refine ⟨fun e' w' h => ?_, fun report w' h => ?_⟩
      · cases h
      cases h
      have hne := (Endpoints.slot_ne_of_check hprepared.check).1
      exact ⟨pair.image, pair.palette, commit_delivered hne himage hpalette hcommit,
        hprepared.describes (ConversionOptions.fits_of_encode hpair)⟩

/-- A picture of one gray pixel, as a file. -/
def dotFile : List UInt8 :=
  [137, 80, 78, 71, 13, 10, 26, 10, 0, 0, 0, 13, 73, 72, 68, 82, 0, 0, 0, 1, 0, 0, 0, 1, 8, 0, 0,
    0, 0, 58, 126, 155, 85, 0, 0, 0, 13, 73, 68, 65, 84, 120, 1, 1, 2, 0, 253, 255, 0, 7, 0, 9, 0,
    8, 185, 172, 134, 135, 0, 0, 0, 0, 73, 69, 78, 68, 174, 66, 96, 130]

theorem decode_dotFile :
    Source.decode dotFile = .ok ⟨1, 1, [7, 7, 7, 255], by decide, by decide, by decide⟩ := by
  decide +kernel

/-- The picture, a link to it, and a file that may be replaced. -/
def dotted : Workspace :=
  ⟨⟨[(["a"], .file dotFile), (["s"], .link ⟨"a"⟩), (["i"], .file [1])]⟩, []⟩

/-- Asks for a bit for each pixel, for all colors, and to read the picture over the link. -/
def dotParams (image : Path) : ConversionParams := ⟨none, 1, 0, ⟨⟨"s"⟩, image, ⟨"p"⟩⟩⟩

/-- Runs no program. -/
def idle : Runner := fun w _ => (.error .notFound, w)

theorem dot_delivered :
    dotted.NamesNoLink ⟨"i"⟩ ∧ dotted.NamesNoLink ⟨"p"⟩ ∧ ∃ report w' image palette,
      runWith Source.decode Resample.lanczos ⟨{ pad := true }, .builtIn⟩ idle dotted
          (dotParams ⟨"i"⟩) = (.ok report, w') ∧
        report.entries = 2 ∧ Delivered dotted w' ⟨⟨"i"⟩, ⟨"p"⟩⟩ image palette ∧
        image.length = 1 ∧ palette.length = 8 := by
  have himage : dotted.NamesNoLink ⟨"i"⟩ :=
    namesNoLink_of_slot (l := ["i"]) (x := some (.file [1])) (by cbv) (by cbv) (by simp)
  have hpalette : dotted.NamesNoLink ⟨"p"⟩ :=
    namesNoLink_of_slot (l := ["p"]) (x := none) (by cbv) (by cbv) (by simp)
  have hvalid : (dotParams ⟨"i"⟩).validate dotted =
      .ok ⟨none, ⟨.one, 0, by decide⟩, (dotParams ⟨"i"⟩).paths⟩ := by cbv
  have hread : dotted.read (dotParams ⟨"i"⟩).paths.source = .ok dotFile := by cbv
  have hresult : (runWith Source.decode Resample.lanczos ⟨{ pad := true }, .builtIn⟩ idle dotted
      (dotParams ⟨"i"⟩)).1 = .ok ⟨1, 1, .one, 2, 1, 8, (dotParams ⟨"i"⟩).outputs⟩ := by
    simp only [runWith, hvalid, prepareWith, Source.ofFileWith, hread, decode_dotFile]
    cbv
  obtain ⟨image, palette, hdelivered, hdescribes⟩ := (runWith_all_or_nothing Source.decode
    Resample.lanczos { pad := true } idle dotted (dotParams ⟨"i"⟩) himage hpalette).2 _ _
    (Prod.ext hresult rfl)
  exact ⟨himage, hpalette, _, _, image, palette, Prod.ext hresult rfl, rfl, hdelivered,
    hdescribes.image, hdescribes.palette⟩

end Pipeline

end PaletteBitmap

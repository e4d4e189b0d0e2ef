import Mathlib
import PaletteBitmap.Preview
import PaletteBitmap.Proofs.PairCheck
import PaletteBitmap.Proofs.SingleFile
import PaletteBitmap.Proofs.SourceKept

/-!
# Two checks of a pair

A pair of files is checked in two places: when a program has encoded it, and when it is to be
looked at.  The first check counts the entries of the palette by its length, the second by the
colors read from it, and they report what is wrong in different orders.  Yet they accept the same
pairs (`check_iff_render`), but for the number of colors asked for, which a preview knows nothing
of.  So what a conversion delivers can always be previewed.
-/

namespace PaletteBitmap

/-! ## Reading files -/

/-- A bitmap that is made of bytes, counted one by one, has these bytes, as many as its size
needs. -/
theorem PackedBitmap.ofBytesWith_eq_ok_iff {data : List UInt8} {width height : Nat} {d : BitDepth}
    {o : PixelOrder} {m : PackedBitmap} : ofBytesWith id data width height d o = .ok m ↔
      data.length = d.stride width * height ∧ m = ⟨width, height, d, o, data⟩ := by
  rw [ofBytesWith]
  constructor
  · intro h
    split at h
    · rename_i hdata
      cases h
      exact ⟨hdata, rfl⟩
    · cases h
  · rintro ⟨hdata, rfl⟩
    exact if_pos hdata

namespace PaletteFormat

variable {f : PaletteFormat} {bytes : List UInt8} {colors : List Rgba}

theorem length_psxColors (bytes : List UInt8) : (psxColors bytes).length = bytes.length / 2 := by
  fun_induction psxColors bytes with
  | case1 low high rest ih =>
      simp only [List.length_cons, ih]
      omega
  | case2 rest hnot =>
      match rest, hnot with
      | [], _ | [_], _ => simp only [List.length_cons, List.length_nil]
      | low :: high :: more, hnot => exact absurd rfl (hnot low high more)

/-- There are as many entries as the length has entry sizes. -/
theorem length_readEntries (f : PaletteFormat) (bytes : List UInt8) :
    (f.readEntries bytes).length = bytes.length / f.entrySize := by
  cases f with
  | rgba8888 => exact Rgba.length_listOfBytes bytes
  | psx16 => exact length_psxColors bytes

theorem decode_eq_ok_iff : f.decode bytes = .ok colors ↔
    bytes.length % f.entrySize = 0 ∧ f.readEntries bytes = colors := by
  by_cases hwhole : bytes.length % f.entrySize = 0
  · simp [decode_eq_readEntries f hwhole, hwhole]
  · simp [decode, hwhole]

/-- The length of what is decoded, counted entry by entry. -/
theorem length_eq_of_decode (h : f.decode bytes = .ok colors) :
    bytes.length = colors.length * f.entrySize := by
  obtain ⟨hwhole, rfl⟩ := decode_eq_ok_iff.1 h
  rw [length_readEntries]
  exact (Nat.div_mul_cancel (Nat.dvd_of_mod_eq_zero hwhole)).symm

end PaletteFormat

/-! ## What a preview accepts -/

namespace PreviewRequest

variable {r : PreviewRequest} {w : Workspace} {image palette : List UInt8} {p : Png}

/-- A bitmap and colors that the bytes of a pair stand for and that go together. -/
structure Drawable (r : PreviewRequest) (image palette : List UInt8) (bitmap : PackedBitmap)
    (colors : List Rgba) : Prop where
  image_length : image.length = r.depth.stride r.width * r.height
  bitmap_eq : bitmap = ⟨r.width, r.height, r.depth, r.order, image⟩
  colors_eq : r.format.decode palette = .ok colors
  colors_pos : 1 ≤ colors.length
  colors_le : colors.length ≤ r.depth.capacity
  mapped : ∀ i ∈ bitmap.unpack, i.toNat < colors.length

theorem Drawable.draw_eq {bitmap : PackedBitmap} {colors : List Rgba}
    (h : r.Drawable image palette bitmap colors) : r.draw image palette = .ok (png bitmap colors) := by
  have hsize : ¬ (colors.isEmpty = true ∨ r.depth.capacity < colors.length) := by
    rintro (hempty | hover)
    · have hlength := List.isEmpty_iff_length_eq_zero.1 hempty
      exact absurd h.colors_pos (by omega)
    · exact absurd h.colors_le (Nat.not_le.2 hover)
  have hbitmap := PackedBitmap.ofBytesWith_eq_ok_iff.2 ⟨h.image_length, h.bitmap_eq⟩
  have hnone := find?_eq_none_iff_lt.2 h.mapped
  simp only [draw, h.colors_eq, if_neg hsize, hbitmap, hnone]

theorem exists_drawable_of_draw (h : r.draw image palette = .ok p) :
    ∃ bitmap colors, r.Drawable image palette bitmap colors ∧ p = png bitmap colors := by
  rw [draw] at h
  split at h
  · cases h
  rename_i colors hcolors
  split at h
  · cases h
  rename_i hsize
  split at h
  · cases h
  rename_i bitmap hbitmap
  split at h
  · cases h
  rename_i hnone
  cases h
  obtain ⟨hempty, hover⟩ := not_or.1 hsize
  rw [List.isEmpty_iff_length_eq_zero] at hempty
  obtain ⟨hlength, hbitmap⟩ := PackedBitmap.ofBytesWith_eq_ok_iff.1 hbitmap
  exact ⟨bitmap, colors, ⟨hlength, hbitmap, hcolors, Nat.pos_of_ne_zero hempty, Nat.not_lt.1 hover,
    find?_eq_none_iff_lt.1 hnone⟩, rfl⟩

/-- The pair is found and can be drawn. -/
theorem prepare_eq_ok_iff : r.prepare w = .ok p ↔ 0 < r.width ∧ 0 < r.height ∧
    ∃ image palette, w.read r.image = .ok image ∧ w.read r.palette = .ok palette ∧
      r.draw image palette = .ok p := by
  constructor
  · intro h
    rw [prepare] at h
    split at h
    · cases h
    rename_i hsize
    split at h
    · cases h
    rename_i image himage
    split at h
    · cases h
    rename_i palette hpalette
    split at h
    · cases h
    rename_i q hdraw
    cases h
    obtain ⟨hwidth, hheight⟩ := not_or.1 hsize
    exact ⟨Nat.pos_of_ne_zero hwidth, Nat.pos_of_ne_zero hheight, image, palette, himage,
      hpalette, hdraw⟩
  · rintro ⟨hwidth, hheight, image, palette, himage, hpalette, hdraw⟩
    have hsize : ¬ (r.width = 0 ∨ r.height = 0) := by omega
    simp only [prepare, if_neg hsize, himage, hpalette, hdraw]

/-- A writer has a file for every picture that is drawn of a pair. -/
def TakenBy (write : Png.Writer) : Prop :=
  ∀ (r : PreviewRequest) (w : Workspace) (p : Png), r.prepare w = .ok p →
    ∃ bytes, write p = .ok bytes

theorem takenBy_plain : TakenBy Png.plain := fun _ _ p _ => ⟨p.encode, rfl⟩

/-- A preview is written if the pair can be drawn and there is a place for the file. -/
theorem renderWith_eq_ok_iff {write : Png.Writer} (hwrite : TakenBy write) :
    (r.renderWith write w).1 = .ok () ↔ (∃ p, r.prepare w = .ok p) ∧ w.Writable r.output := by
  rw [renderWith]
  cases hprepare : r.prepare w with
  | error e => simp
  | ok p =>
      obtain ⟨bytes, hbytes⟩ := hwrite r w p hprepare
      simpa [hbytes] using Output.writeFile_eq_ok_iff bytes

end PreviewRequest

/-! ## The same pairs -/

namespace PairForm

variable {f : PairForm} {width height : Nat} {s : EncodeSettings} {image palette : List UInt8}

/-- Asks to look at a pair of a form. -/
def preview (f : PairForm) (depth : BitDepth) (width height : Nat)
    (image palette output : Path) : PreviewRequest :=
  { image, palette, width, height, depth, format := f.format, order := f.order, output }

variable {i q output : Path}

/-- What is admitted can be drawn, and what can be drawn is admitted unless it has more colors
than were asked for. -/
theorem exists_admits_iff : (∃ n, f.Admits width height s image palette n) ↔
    (∃ bitmap colors, (f.preview s.depth width height i q output).Drawable image palette bitmap
      colors) ∧ (s.count = 0 ∨ f.pad = true ∨ palette.length / f.format.entrySize ≤ s.count) := by
  have hsize := f.format.entrySize_pos
  constructor
  · rintro ⟨n, h⟩
    obtain ⟨bitmap, hbitmap, hmapped⟩ := h.mapped
    cases (PackedBitmap.ofBytes_eq_ok h.image_length).symm.trans hbitmap
    have hwhole : palette.length % f.format.entrySize = 0 := by
      rw [h.palette_length, Nat.mul_mod_left]
    have hcount : palette.length / f.format.entrySize = n := by
      rw [h.palette_length, Nat.mul_div_cancel n hsize]
    have hlength : (f.format.readEntries palette).length = n := by
      rw [PaletteFormat.length_readEntries, hcount]
    refine ⟨⟨_, f.format.readEntries palette, h.image_length, rfl,
      PaletteFormat.decode_eq_readEntries f.format hwhole, ?_, ?_, ?_⟩, ?_⟩
    · exact hlength ▸ h.entries_pos
    · exact hlength ▸ h.entries_le
    · exact hlength ▸ hmapped
    · rw [hcount]
      have hwanted := h.entries_le_count
      by_cases hzero : s.count = 0
      · exact .inl hzero
      · cases hpad : f.pad with
        | true => exact .inr (.inl rfl)
        | false => exact .inr (.inr (hwanted (Nat.pos_of_ne_zero hzero) hpad))
  · rintro ⟨⟨bitmap, colors, h⟩, hwanted⟩
    have hlength : palette.length = colors.length * f.format.entrySize :=
      PaletteFormat.length_eq_of_decode h.colors_eq
    rw [hlength, Nat.mul_div_cancel _ hsize] at hwanted
    have hbitmap := PackedBitmap.ofBytes_eq_ok (d := s.depth) (o := f.order) h.image_length
    refine ⟨colors.length, h.image_length, hlength, h.colors_pos, h.colors_le, ?_, bitmap,
      h.bitmap_eq ▸ hbitmap, h.mapped⟩
    intro hcount hpad
    rcases hwanted with hzero | hpadded | hle
    · omega
    · simp [hpad] at hpadded
    · exact hle

/-- Where two files hold a pair and there is a place for the preview, it is written just if the
pair can be drawn. -/
theorem render_preview_eq_ok_iff {write : Png.Writer} (hwrite : PreviewRequest.TakenBy write)
    {w : Workspace} (hwidth : 0 < width) (hheight : 0 < height)
    (himage : w.read i = .ok image) (hpalette : w.read q = .ok palette)
    (houtput : w.Writable output) {depth : BitDepth} :
    ((f.preview depth width height i q output).renderWith write w).1 = .ok () ↔
      ∃ bitmap colors, (f.preview depth width height i q output).Drawable image palette bitmap
        colors := by
  refine ((PreviewRequest.renderWith_eq_ok_iff hwrite).trans (and_iff_left houtput)).trans ?_
  constructor
  · rintro ⟨p, hp⟩
    obtain ⟨-, -, image', palette', himage', hpalette', hdraw⟩ :=
      PreviewRequest.prepare_eq_ok_iff.1 hp
    cases himage.symm.trans himage'
    cases hpalette.symm.trans hpalette'
    obtain ⟨bitmap, colors, hdrawable, -⟩ := PreviewRequest.exists_drawable_of_draw hdraw
    exact ⟨bitmap, colors, hdrawable⟩
  · rintro ⟨bitmap, colors, hdrawable⟩
    exact ⟨_, PreviewRequest.prepare_eq_ok_iff.2
      ⟨hwidth, hheight, image, palette, himage, hpalette, hdrawable.draw_eq⟩⟩

end PairForm

/-! ## What conversions deliver -/

open Workspace

/-- What a program has encoded has passed the check. -/
theorem ExternalEncoder.check_of_encode {e : ExternalEncoder} {runner : Runner} {w : Workspace}
    {image : Raster} {s : EncodeSettings} {pair : EncodedPair}
    (h : (e.encode runner w image s).1 = .ok pair) :
    e.form.check image.width image.height s pair.image pair.palette = .ok pair.entries := by
  rw [encode] at h
  split at h
  · cases h
  · dsimp only at h
    rw [conclude.eq_def] at h
    split at h
    · cases h
    split at h
    · split at h
      · cases h
      split at h
      · cases h
      · rename_i hcheck
        cases h
        exact hcheck
    · cases h

namespace Pipeline

variable {decode : Decoder} {resizer : Resample.Resizer} {p : Pipeline} {runner : Runner}
  {w w' : Workspace} {params : ConversionParams} {image : Raster} {s : EncodeSettings}
  {pair : EncodedPair}

/-- The form in which a pipeline writes its pairs. -/
def form (p : Pipeline) : PairForm :=
  match p.encoder with
  | .builtIn => p.options.form
  | .external e => e.form

/-- A configured pipeline writes in the form that its options ask for. -/
theorem form_of_ofConfig {c : Config} (h : ofConfig c = .ok p) : p.form = p.options.form := by
  rw [ofConfig] at h
  split at h
  · cases h
  · split at h
    · cases h
      rfl
    · cases h
      rfl

/-- Either encoder yields what the check admits. -/
theorem admits_of_encode (h : (p.encode runner w image s).1 = .ok pair) :
    p.form.Admits image.width image.height s pair.image pair.palette pair.entries := by
  rw [encode] at h
  rw [form]
  split at h
  · rename_i hencoder
    simpa [hencoder] using ConversionOptions.admits_of_encode h
  · rename_i e hencoder
    simpa [hencoder] using PairForm.admits_of_check (ExternalEncoder.check_of_encode h)

/-- The pair that a conversion with a report has committed: it was encoded from the prepared
image. -/
structure Commits (decode : Decoder) (p : Pipeline) (runner : Runner) (w w' : Workspace)
    (params : ConversionParams) (report : ConversionReport) (pair : EncodedPair) : Prop where
  stages : ∃ s image v, Prepared decode w params s image ∧
    p.encode runner w image s = (.ok pair, v) ∧
    params.outputs.commit v pair.image pair.palette = (.ok (), w') ∧
    report.depth = s.depth ∧ report.width = image.width ∧ report.height = image.height

theorem exists_commits {report : ConversionReport}
    (h : p.runWith decode resizer runner w params = (.ok report, w')) :
    ∃ pair, Commits decode p runner w w' params report pair := by
  rcases runWith_cases decode resizer p runner w params with
    ⟨e, hrun⟩ | ⟨s, image, hprepared, hrun⟩
  · cases hrun.symm.trans h
  · rw [hrun] at h
    rcases finish_cases p runner w image s params.outputs with
      ⟨e, hfinish⟩ | ⟨pair, hpair, ⟨e, w₁, -, hfinish⟩ | ⟨w₁, hcommit, hfinish⟩⟩
    · cases hfinish.symm.trans h
    · cases hfinish.symm.trans h
    · cases hfinish.symm.trans h
      exact ⟨pair, s, image, _, hprepared, Prod.ext hpair rfl, hcommit, rfl, rfl, rfl⟩

/-- Both files are found in their places, if the encoder has left the files alone and no link
stood there. -/
theorem Commits.read {report : ConversionReport}
    (h : Commits decode p runner w w' params report pair) (hquiet : p.Quiet runner w)
    (himage : w.NamesNoLink params.paths.image) (hpalette : w.NamesNoLink params.paths.palette) :
    w'.read params.paths.image = .ok pair.image ∧
      w'.read params.paths.palette = .ok pair.palette := by
  obtain ⟨s, image, v, hprepared, hencode, hcommit, -⟩ := h.stages
  have hsame : Same w v := by simpa [hencode] using hquiet image s
  -- The paths name the same entries after encoding as before.
  have hback : ∀ p l, v.slot p = .ok l → w.slot p = .ok l :=
    fun _ _ hl => hsame.alike.slot_back (by simp) hl
  have hlinks : ∀ p, w.NamesNoLink p → v.NamesNoLink p := by
    intro p hp l target hl
    rw [hsame.get?]
    exact hp l target (hback p l hl)
  have hne : ∀ l, v.slot params.paths.image = .ok l → v.slot params.paths.palette ≠ .ok l :=
    fun l hl hl' => (Endpoints.slot_ne_of_check hprepared.check).1 l (hback _ l hl) (hback _ l hl')
  have hdelivered : OutputPair.Delivered v w' params.outputs pair.image pair.palette :=
    OutputPair.commit_delivered hne (hlinks _ himage) (hlinks _ hpalette) hcommit
  exact ⟨hdelivered.image, hdelivered.palette⟩

end Pipeline

/-! ## Main statement -/

/-- The check of a pair accepts it if and only if a preview of files with these bytes is written,
whatever bytes they are, and there are not more colors than were asked for.  A pair that a
conversion has committed, by either encoder, is previewed wherever its files are found, and they
are found in their places if no link stood there.  It does not matter how the pictures are written,
as long as they are. -/
theorem check_iff_render (write : Png.Writer) (hwrite : PreviewRequest.TakenBy write) :
    (∀ (f : PairForm) (s : EncodeSettings) (width height : Nat) (image palette : List UInt8)
      (w : Workspace) (i q output : Path), 0 < width → 0 < height → w.read i = .ok image →
      w.read q = .ok palette → w.Writable output →
      ((∃ n, f.check width height s image palette = .ok n) ↔
        ((f.preview s.depth width height i q output).renderWith write w).1 = .ok () ∧
          (s.count = 0 ∨ f.pad = true ∨ palette.length / f.format.entrySize ≤ s.count))) ∧
    ∀ (decode : Decoder) (resizer : Resample.Resizer) (p : Pipeline) (runner : Runner)
      (w w' : Workspace) (params : ConversionParams) (report : ConversionReport),
      p.runWith decode resizer runner w params = (.ok report, w') →
      ∃ pair, Pipeline.Commits decode p runner w w' params report pair ∧
        (∀ (v : Workspace) (i q output : Path), v.read i = .ok pair.image →
          v.read q = .ok pair.palette → v.Writable output →
          ((p.form.preview report.depth report.width report.height i q output).renderWith write
            v).1 = .ok ()) ∧
        (p.Quiet runner w → w.NamesNoLink params.paths.image →
          w.NamesNoLink params.paths.palette →
          w'.read params.paths.image = .ok pair.image ∧
            w'.read params.paths.palette = .ok pair.palette) := by
  constructor
  · intro f s width height image palette w i q output hwidth hheight himage hpalette houtput
    simp only [PairForm.check_eq_ok_iff]
    rw [PairForm.render_preview_eq_ok_iff hwrite hwidth hheight himage hpalette houtput]
    exact PairForm.exists_admits_iff
  · intro decode resizer p runner w w' params report hrun
    obtain ⟨pair, hcommits⟩ := Pipeline.exists_commits hrun
    refine ⟨pair, hcommits, ?_, hcommits.read⟩
    intro v i q output hi hq houtput
    obtain ⟨s, image, u, -, hencode, -, hdepth, hwidth, hheight⟩ := hcommits.stages
    have hadmits := Pipeline.admits_of_encode (p := p) (by rw [hencode])
    rw [hdepth, hwidth, hheight,
      PairForm.render_preview_eq_ok_iff hwrite image.width_pos image.height_pos hi hq houtput]
    exact (PairForm.exists_admits_iff.1 ⟨_, hadmits⟩).1

/-- Three pixels of four bits with a bit too many, a palette of three words, and something that
is to be a picture. -/
def pairFiles : Workspace :=
  ⟨⟨[(["i"], .file [0x21, 0xF0]), (["p"], .file [0, 0, 31, 0, 0, 124]), (["s"], .file [1])]⟩, []⟩

def wordForm : PairForm := { format := .psx16 }

/-- Takes any file for a picture of two pixels. -/
def twoPixels : Decoder := fun _ =>
  .ok ⟨2, 1, [0, 0, 0, 255, 9, 9, 9, 255], Nat.two_pos, Nat.one_pos, by decide⟩

/-- Asks for a bit for each pixel and for all colors. -/
def pairParams : ConversionParams := ⟨none, 1, 0, ⟨⟨"s"⟩, ⟨"a"⟩, ⟨"b"⟩⟩⟩

theorem nibbles_previewed : PreviewRequest.TakenBy Png.plain ∧
    pairFiles.read ⟨"i"⟩ = .ok [0x21, 0xF0] ∧ pairFiles.read ⟨"p"⟩ = .ok [0, 0, 31, 0, 0, 124] ∧
      pairFiles.Writable ⟨"o"⟩ ∧
      wordForm.check 3 1 ⟨.four, 0, by decide⟩ [0x21, 0xF0] [0, 0, 31, 0, 0, 124] = .ok 3 ∧
      ((wordForm.preview .four 3 1 ⟨"i"⟩ ⟨"p"⟩ ⟨"o"⟩).renderWith Png.plain pairFiles).1 = .ok () ∧
      (¬ ∃ n, wordForm.check 3 1 ⟨.four, 2, by decide⟩ [0x21, 0xF0] [0, 0, 31, 0, 0, 124] =
        .ok n) ∧
      ∃ report w', Pipeline.runWith twoPixels Resample.lanczos ⟨{}, .builtIn⟩ Pipeline.idle
          pairFiles pairParams = (.ok report, w') ∧ w'.Writable ⟨"o"⟩ ∧
        (((Pipeline.mk {} .builtIn).form.preview report.depth report.width report.height ⟨"a"⟩
          ⟨"b"⟩ ⟨"o"⟩).renderWith Png.plain w').1 = .ok () := by
  have himage : pairFiles.read ⟨"i"⟩ = .ok [0x21, 0xF0] := by cbv
  have hpalette : pairFiles.read ⟨"p"⟩ = .ok [0, 0, 31, 0, 0, 124] := by cbv
  have houtput : pairFiles.Writable ⟨"o"⟩ :=
    Workspace.writable_of_none (l := ["o"]) (by cbv) (by cbv)
  have hcheck : wordForm.check 3 1 ⟨.four, 0, by decide⟩ [0x21, 0xF0] [0, 0, 31, 0, 0, 124] =
      .ok 3 := by cbv
  have htaken := PreviewRequest.takenBy_plain
  have hsame := fun s => (check_iff_render Png.plain htaken).1 wordForm s 3 1 [0x21, 0xF0]
    [0, 0, 31, 0, 0, 124] pairFiles ⟨"i"⟩ ⟨"p"⟩ ⟨"o"⟩ (by decide) (by decide) himage hpalette
    houtput
  have hrender := ((hsame ⟨.four, 0, by decide⟩).1 ⟨3, hcheck⟩).1
  refine ⟨htaken, himage, hpalette, houtput, hcheck, hrender, ?_, ?_⟩
  · -- Two colors were asked for, and there are three.
    rw [hsame ⟨.four, 2, by decide⟩]
    rintro ⟨-, hwanted⟩
    exact absurd hwanted (by decide)
  · have hrun : Pipeline.runWith twoPixels Resample.lanczos ⟨{}, .builtIn⟩ Pipeline.idle pairFiles
        pairParams = (.ok ⟨2, 1, .one, 2, 1, 8, pairParams.outputs⟩,
          ⟨⟨(["b"], .file [0, 0, 0, 255, 9, 9, 9, 255]) :: (["a"], .file [2]) ::
            pairFiles.tree.entries⟩, []⟩) := by cbv
    obtain ⟨pair, -, hpreview, hread⟩ := (check_iff_render Png.plain htaken).2 twoPixels
      Resample.lanczos ⟨{}, .builtIn⟩ Pipeline.idle pairFiles _ pairParams _ hrun
    have hnone : ∀ n : String, pairFiles.slot ⟨n⟩ = .ok [n] → pairFiles.tree.get? [n] = none →
        pairFiles.NamesNoLink ⟨n⟩ := fun n hslot hget =>
      Workspace.namesNoLink_of_slot hslot hget (by simp)
    obtain ⟨hfirst, hsecond⟩ := hread (Pipeline.quiet_builtIn _ _ _)
      (hnone "a" (by cbv) (by cbv)) (hnone "b" (by cbv) (by cbv))
    have hplace := Workspace.writable_of_none
      (w := ⟨⟨(["b"], .file [0, 0, 0, 255, 9, 9, 9, 255]) :: (["a"], .file [2]) ::
        pairFiles.tree.entries⟩, []⟩) (p := ⟨"o"⟩) (l := ["o"]) (by cbv) (by cbv)
    exact ⟨_, _, hrun, hplace, hpreview _ _ _ _ hfirst hsecond hplace⟩

end PaletteBitmap

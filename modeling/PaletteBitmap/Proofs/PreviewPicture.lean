import Mathlib
import PaletteBitmap.Png.Picture
import PaletteBitmap.Proofs.PreviewCheck
import PaletteBitmap.Proofs.Repacking

/-!
# What a preview shows

A preview is an indexed picture, and there are two ways to look at it: pixel by pixel, as the format
of such files lays them out (`Png.colorAt?`), and all at once, as pictures are read here
(`Png.pixels`).  Both show the colors that the pair of files stands for, whatever bits the bitmap
has beyond its pixels and however far the palette was filled up (`PreviewRequest.Shows`).

How the picture gets into the file is not looked at.  Of the writer it is only asked that the
picture drawn can be read again from what is written (`Png.Writer.ReadBy`).
-/

namespace PaletteBitmap

/-! ## Indexed pictures -/

namespace Png

/-- The palette position of a pixel; the leftmost pixel of a byte has its high bits. -/
def indexAt? (p : Png) (x y : Nat) : Option Nat :=
  if x < p.width ∧ y < p.height then
    p.rows[y * p.stride + x * p.depth / 8]?.map fun byte =>
      byte.toNat >>> (8 - p.depth - x * p.depth % 8) % 2 ^ p.depth
  else none

/-- The alpha of a palette position; without transparency all colors are visible. -/
def alphaAt (p : Png) (i : Nat) : UInt8 :=
  match p.transparency with
  | none => 255
  | some alphas => alphas.getD i 255

/-- The color of a pixel: three bytes of the palette, and an alpha. -/
def colorAt? (p : Png) (x y : Nat) : Option Rgba := do
  let i ← p.indexAt? x y
  let palette ← p.palette
  return ⟨← palette[i * 3]?, ← palette[i * 3 + 1]?, ← palette[i * 3 + 2]?, p.alphaAt i⟩

/-- What a writer makes of a picture, if it makes anything of it, is read as that picture. -/
def Writer.ReadBy (write : Writer) (read : List UInt8 → Option Png) (p : Png) : Prop :=
  ∀ bytes, write p = .ok bytes → read bytes = some p

end Png

/-! ## Pixels of a bitmap -/

theorem groups_one {α : Type} (xs : List α) : groups 1 xs = xs.map ([·]) := by
  induction xs with
  | nil => rw [groups, List.map_nil]
  | cons x xs ih => rw [groups, Nat.sub_self, List.take_zero, List.drop_zero, ih, List.map_cons]

namespace PackedBitmap

variable {m : PackedBitmap} {x y : Nat}

/-- The data has no more rows than the bitmap. -/
theorem take_groups_data (hm : m.Sized) :
    (groups m.stride m.data).take m.height = groups m.stride m.data := by
  have hdata : m.data.length = m.stride * m.height := hm
  apply List.take_of_length_le
  rcases Nat.eq_zero_or_pos m.stride with hzero | hpos
  · have hnil : m.data = [] := List.eq_nil_of_length_eq_zero (by rw [hdata, hzero, Nat.zero_mul])
    simp [hnil, groups]
  · rw [length_groups hpos, hdata, Nat.add_comm, Nat.add_mul_div_left _ _ hpos,
      Nat.div_eq_of_lt (by omega), Nat.zero_add]

theorem exists_at?_of_lt (hm : m.Sized) (hx : x < m.width) (hy : y < m.height) :
    ∃ i ∈ m.unpack, m.at? x y = some i ∧ m.unpack[y * m.width + x]? = some i := by
  have hlt : y * m.width + x < m.unpack.length := by
    calc
      y * m.width + x < y * m.width + m.width := Nat.add_lt_add_left hx _
      _ = m.width * (y + 1) := by rw [Nat.mul_succ, Nat.mul_comm]
      _ ≤ m.width * m.height := Nat.mul_le_mul_left _ hy
      _ = m.unpack.length := (length_unpack hm).symm
  refine ⟨_, List.getElem_mem hlt, ?_, List.getElem?_eq_getElem hlt⟩
  rw [at?_eq_getElem?_unpack hm hx hy, List.getElem?_eq_getElem hlt]

end PackedBitmap

/-! ## The picture of a pair -/

namespace PreviewRequest

variable {bitmap : PackedBitmap} {colors : List Rgba} {c : Rgba} {i : Nat}

theorem stride_png (bitmap : PackedBitmap) (colors : List Rgba) :
    (png bitmap colors).stride = (bitmap.repack .highFirst).stride := by
  rw [PackedBitmap.stride, PackedBitmap.depth_repack, PackedBitmap.width_repack,
    BitDepth.stride_eq, Png.stride]
  simp [png, SampleKind.samples]

/-- The rows of the picture hold the positions that the bitmap holds. -/
theorem indexAt?_png (hbitmap : bitmap.Sized) (colors : List Rgba) (x y : Nat) :
    (png bitmap colors).indexAt? x y = (bitmap.at? x y).map UInt8.toNat := by
  -- Repacked, the bitmap has its pixels where the picture looks for them.
  rw [← PackedBitmap.at?_repack hbitmap .highFirst, Png.indexAt?, PackedBitmap.at?, stride_png]
  have hmod := Nat.mod_lt x bitmap.depth.perByte_pos
  have hplace := PixelOrder.highFirst.offset_eq_shift bitmap.depth x
  rw [PixelOrder.offset] at hplace
  simp only [png, PackedBitmap.width_repack, PackedBitmap.height_repack,
    PackedBitmap.depth_repack, PackedBitmap.order_repack, bitmap.depth.mul_bits_div, hplace]
  split
  · rw [Option.map_map]
    congr 1
    funext byte
    rw [Function.comp_apply, PackedBitmap.toNat_slotValue byte hmod]
  · rfl

theorem getElem?_paletteBytes (colors : List Rgba) {k : Nat} (hk : k < 3) (i : Nat) :
    (colors.flatMap fun c => [c.r, c.g, c.b])[i * 3 + k]? =
      colors[i]?.bind fun c => [c.r, c.g, c.b][k]? :=
  getElem?_flatMap_of_length (by simp) hk i

/-- Transparency is left out only where it would say nothing. -/
theorem alphaAt_png (hc : colors[i]? = some c) : (png bitmap colors).alphaAt i = c.a := by
  by_cases hany : ∃ c ∈ colors, c.a ≠ 255
  · have hsome : (png bitmap colors).transparency = some (colors.map (·.a)) :=
      if_pos (by simpa using hany)
    simp [Png.alphaAt, hsome, hc]
  · have hnone : (png bitmap colors).transparency = none := if_neg (by simpa using hany)
    have hvisible : c.a = 255 := by
      by_contra h
      exact hany ⟨c, List.mem_of_getElem? hc, h⟩
    simp [Png.alphaAt, hnone, hvisible]

theorem colorAt?_png (hbitmap : bitmap.Sized) {x y : Nat} {i : UInt8}
    (hi : bitmap.at? x y = some i) (hc : colors[i.toNat]? = some c) :
    (png bitmap colors).colorAt? x y = some c := by
  have hbyte := fun k (hk : k < 3) => getElem?_paletteBytes colors hk i.toNat
  have hred := hbyte 0 (by decide)
  have hgreen := hbyte 1 (by decide)
  have hblue := hbyte 2 (by decide)
  rw [Nat.add_zero] at hred
  have hpalette : (png bitmap colors).palette = some (colors.flatMap fun c => [c.r, c.g, c.b]) :=
    rfl
  simp [Png.colorAt?, indexAt?_png hbitmap, hi, hpalette, hred, hgreen, hblue, hc, alphaAt_png hc]

theorem take_paletteBytes (hc : colors[i]? = some c) :
    ((colors.flatMap fun c => [c.r, c.g, c.b]).drop (3 * i)).take 3 = [c.r, c.g, c.b] := by
  apply List.ext_getElem?
  intro k
  by_cases hk : k < 3
  · rw [List.getElem?_take_of_lt hk, List.getElem?_drop, Nat.mul_comm 3 i,
      getElem?_paletteBytes colors hk, hc, Option.bind_some]
  · have hle : 3 ≤ k := Nat.not_lt.1 hk
    rw [List.getElem?_eq_none (Nat.le_trans (List.length_take_le _ _) hle),
      List.getElem?_eq_none (by simpa using hle)]

theorem alphas_png (hc : colors[i]? = some c) : (png bitmap colors).alphas.getD i 255 = c.a := by
  have hlength : (colors.flatMap fun c => [c.r, c.g, c.b]).length = 3 * colors.length := by
    simp [List.length_flatMap, Nat.mul_comm]
  have halpha : (png bitmap colors).alphaAt i = c.a := alphaAt_png hc
  rw [Png.alphaAt] at halpha
  rw [Png.alphas]
  -- There are never more alphas than colors.
  have hfits : 3 * ((png bitmap colors).transparency.getD []).length ≤
      ((png bitmap colors).palette.getD []).length := by
    simp only [png, Option.getD_some, hlength]
    split <;> simp
  simp only [if_pos hfits]
  cases htransparency : (png bitmap colors).transparency with
  | none => simpa [htransparency] using halpha
  | some alphas => simpa [htransparency] using halpha

theorem pixel_png {i : UInt8} (hc : colors[i.toNat]? = some c) :
    (png bitmap colors).pixel [i] = c := by
  have hpalette : (png bitmap colors).palette = some (colors.flatMap fun c => [c.r, c.g, c.b]) :=
    rfl
  have hkind : (png bitmap colors).kind = .indexed := rfl
  simp only [Png.pixel, hkind, hpalette, Option.getD_some, take_paletteBytes hc, alphas_png hc]

/-- Read all at once, the picture has the positions of the bitmap as well. -/
theorem pixels_png (hbitmap : bitmap.Sized) (colors : List Rgba) : (png bitmap colors).pixels =
    bitmap.unpack.map fun i => (png bitmap colors).pixel [i] := by
  have hrow : ∀ row, (png bitmap colors).rowSamples row =
      PackedBitmap.unpackRow bitmap.depth .highFirst bitmap.width row := by
    intro row
    simp [Png.rowSamples, png, BitDepth.ofBits?_bits, SampleKind.samples]
  have hsamples : (png bitmap colors).kind.samples = 1 := rfl
  have hdata : (png bitmap colors).rows = (bitmap.repack .highFirst).data := rfl
  simp only [Png.pixels, stride_png, hrow, hsamples, hdata, groups_one, List.map_map]
  rw [← PackedBitmap.unpack_repack hbitmap .highFirst, PackedBitmap.unpack,
    PackedBitmap.take_groups_data (hbitmap.repack .highFirst), List.map_flatMap]
  simp only [PackedBitmap.depth_repack, PackedBitmap.order_repack, PackedBitmap.width_repack]
  rfl

end PreviewRequest

/-! ## Main statement -/

namespace PreviewRequest

/-- A picture shows the pair of files that a request names: it has the size and the depth asked
for, and every pixel, however it is looked at, has the color that the palette file has at the
position stored for it. -/
structure Shows (r : PreviewRequest) (w : Workspace) (p : Png) : Prop where
  width_eq : p.width = r.width
  height_eq : p.height = r.height
  kind_eq : p.kind = .indexed
  depth_eq : p.depth = r.depth.bits
  pixel : ∃ image palette bitmap colors, w.read r.image = .ok image ∧
    w.read r.palette = .ok palette ∧
    PackedBitmap.ofBytes image r.width r.height r.depth r.order = .ok bitmap ∧
    r.format.decode palette = .ok colors ∧
    ∀ x < r.width, ∀ y < r.height, ∃ i c, bitmap.at? x y = some i ∧ colors[i.toNat]? = some c ∧
      p.colorAt? x y = some c ∧ p.pixels[y * r.width + x]? = some c

variable {r : PreviewRequest} {w : Workspace} {p : Png}

theorem shows_of_prepare (h : r.prepare w = .ok p) : r.Shows w p := by
  obtain ⟨-, -, image, palette, himage, hpalette, hdraw⟩ := prepare_eq_ok_iff.1 h
  obtain ⟨bitmap, colors, hdrawable, rfl⟩ := exists_drawable_of_draw hdraw
  obtain rfl := hdrawable.bitmap_eq
  have hsized : PackedBitmap.Sized ⟨r.width, r.height, r.depth, r.order, image⟩ :=
    hdrawable.image_length
  refine ⟨rfl, rfl, rfl, rfl, image, palette, _, colors, himage, hpalette,
    PackedBitmap.ofBytes_eq_ok hdrawable.image_length, hdrawable.colors_eq, ?_⟩
  intro x hx y hy
  obtain ⟨i, hmem, hat, hunpack⟩ := PackedBitmap.exists_at?_of_lt hsized hx hy
  have hc := List.getElem?_eq_getElem (hdrawable.mapped i hmem)
  refine ⟨i, _, hat, hc, colorAt?_png hsized hat hc, ?_⟩
  rw [pixels_png hsized, List.getElem?_map, hunpack, Option.map_some, pixel_png hc]

/-- A preview fails and leaves everything as it was, or it writes one file, and the picture that is
read from it shows the pair that was asked for.  The file is found at its path, unless the path was
a link that something led through. -/
theorem render_shows (write : Png.Writer) (read : List UInt8 → Option Png) (r : PreviewRequest)
    (w : Workspace) (hread : ∀ p, r.prepare w = .ok p → write.ReadBy read p) :
    (∃ e w', r.renderWith write w = (.error e, w') ∧ ∀ m, w'.tree.get? m = w.tree.get? m) ∨
    ∃ p bytes l w', r.renderWith write w = (.ok (), w') ∧ write p = .ok bytes ∧
      read bytes = some p ∧ r.Shows w p ∧ w.slot r.output = .ok l ∧
      (∀ m, w'.tree.get? m = if m = l then some (.file bytes) else w.tree.get? m) ∧
      (w.NamesNoLink r.output → w'.read r.output = .ok bytes) := by
  simp only [renderWith]
  cases hprepare : r.prepare w with
  | error e => exact .inl ⟨e, w, rfl, fun _ => rfl⟩
  | ok p =>
      cases hbytes : write p with
      | error reason => exact .inl ⟨.pngEncode reason, w, by simp only [hbytes], fun _ => rfl⟩
      | ok bytes =>
          simp only [hbytes]
          by_cases hwritable : w.Writable r.output
          · obtain ⟨l, hslot, hdir⟩ := hwritable
            obtain ⟨w', hwrite, hwrote⟩ := Output.writeFile_of_slot hslot hdir bytes
            exact .inr ⟨p, bytes, l, w', hwrite, hbytes, hread p hprepare bytes hbytes,
              shows_of_prepare hprepare, hslot, hwrote.get?, hwrote.read hslot hdir⟩
          · obtain ⟨e, w', hwrite, hsame⟩ := Output.writeFile_of_not_writable hwritable bytes
            exact .inl ⟨_, w', hwrite, hsame⟩

/-- Asks to look at three pixels of four bits, with a bit too many behind them. -/
def pairPreview : PreviewRequest := wordForm.preview .four 3 1 ⟨"i"⟩ ⟨"p"⟩ ⟨"o"⟩

/-- The pixels are red, blue and nothing, and the bit behind them is gone. -/
def pairPicture : Png where
  width := 3
  height := 1
  kind := .indexed
  depth := 4
  palette := some [0, 0, 0, 255, 0, 0, 0, 0, 255]
  transparency := some [0, 255, 255]
  rows := [0x12, 0x00]

theorem nibbles_shown :
    (∀ p, pairPreview.prepare pairFiles = .ok p → Png.plain.ReadBy Png.decode p) ∧
      ∃ p bytes w', pairPreview.renderWith Png.plain pairFiles = (.ok (), w') ∧
        w'.read ⟨"o"⟩ = .ok bytes ∧ Png.decode bytes = some p ∧ pairPreview.Shows pairFiles p := by
  have hprepare : pairPreview.prepare pairFiles = .ok pairPicture := by cbv
  have hdecode : Png.decode pairPicture.encode = some pairPicture := by decide +kernel
  have hread : ∀ p, pairPreview.prepare pairFiles = .ok p → Png.plain.ReadBy Png.decode p := by
    intro p hp bytes hbytes
    cases hprepare.symm.trans hp
    cases hbytes
    exact hdecode
  have hlink : pairFiles.NamesNoLink pairPreview.output :=
    Workspace.namesNoLink_of_slot (l := ["o"]) (x := none) (by cbv) (by cbv) (by simp)
  have hwritten := (renderWith_eq_ok_iff (r := pairPreview) takenBy_plain).2
    ⟨⟨_, hprepare⟩, Workspace.writable_of_none (w := pairFiles) (l := ["o"]) (by cbv) (by cbv)⟩
  rcases render_shows Png.plain Png.decode pairPreview pairFiles hread with
    ⟨e, w', hrender, -⟩ | ⟨p, bytes, l, w', hrender, hbytes, hback, hshows, -, -, hfound⟩
  · rw [hrender] at hwritten
    cases hwritten
  · exact ⟨hread, p, bytes, w', hrender, hfound hlink, hback, hshows⟩

end PreviewRequest

end PaletteBitmap

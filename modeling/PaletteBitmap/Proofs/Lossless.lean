import PaletteBitmap.Encoder
import PaletteBitmap.Proofs.BitLayout
import PaletteBitmap.Proofs.PaletteFile
import PaletteBitmap.Proofs.Quantization

/-!
# Encoding without loss

An image with no more colors than it may have palette entries can be rebuilt from the two files
it is encoded to.  The rebuilding side (`rebuild`) knows nothing of the encoder: it takes the
bytes of the bitmap and of the palette, the size, and how either file is laid out.  The only
loss is the one of the palette form, and that is the same for every pixel of a color.
-/

namespace PaletteBitmap

open FirstUse

/-- The pixels that a bitmap file and a palette file show together; nothing if the files do not
fit the size or each other. -/
def rebuild (width height : Nat) (d : BitDepth) (o : PixelOrder) (f : PaletteFormat)
    (bitmap palette : List UInt8) : Option (List Rgba) :=
  match PackedBitmap.ofBytes bitmap width height d o, f.decode palette with
  | .ok m, .ok colors => m.unpack.mapM fun i => colors[i.toNat]?
  | _, _ => none

namespace Encoder

variable {e : Encoder} {image : Raster} {q : Quantized}

/-- No palette that a depth can tell apart comes near to what a word can count. -/
theorem fileSize_lt (e : Encoder) {n : Nat} (h : n ≤ e.depth.capacity) :
    e.layout.fileSize n < 2 ^ 64 := by
  have hcapacity := e.depth.capacity_le
  have hentry : e.layout.format.entrySize ≤ 4 := by
    cases e.layout.format <;> decide
  have hcount : e.layout.entryCount n ≤ 256 := by
    refine Nat.max_le.2 ⟨?_, Nat.le_trans h hcapacity⟩
    rw [layout]
    split
    · exact hcapacity
    · exact Nat.zero_le _
  calc
    e.layout.fileSize n ≤ 256 * 4 := Nat.mul_le_mul hcount hentry
    _ < 2 ^ 64 := by decide

theorem length_of_quantize (h : quantize image.pixels e.depth e.options = .ok q) :
    q.indices.length = image.width * image.height := by
  rw [(Quantize.draws_of_quantizeWith h).length_indices, Quantize.picture, List.length_map,
    image.length_pixels]

theorem lt_size_of_quantize (h : quantize image.pixels e.depth e.options = .ok q) :
    ∀ i ∈ q.indices, i.toNat < q.palette.size := fun _ hi =>
  (Quantize.draws_of_quantizeWith h).index_lt (Quantize.size_le_256 h) hi

theorem lt_capacity_of_quantize (h : quantize image.pixels e.depth e.options = .ok q) :
    ∀ i ∈ q.indices, i.toNat < e.depth.capacity := fun i hi =>
  Nat.lt_of_lt_of_le (lt_size_of_quantize h i hi) (Quantize.size_le_capacity h)

/-- What was quantized is packed pixel by pixel, and its palette written out. -/
theorem encode_of_quantize (h : quantize image.pixels e.depth e.options = .ok q) :
    e.encode image = .ok
      ⟨⟨image.width, image.height, e.depth, e.order,
        PackedBitmap.packRows e.depth e.order image.width q.indices⟩,
        q.palette, q.palette.toBytes e.layout⟩ := by
  have hmapped : IndexedImage.unmapped?
      ⟨q.indices, image.width, image.height, q.palette⟩ = none :=
    find?_eq_none_iff_lt.2 (lt_size_of_quantize h)
  have hpack := PackedBitmap.pack_eq_ok (o := e.order) (length_of_quantize h)
    (lt_capacity_of_quantize h)
  simp only [encode, index, h, pack, IndexedImage.pack, hmapped, hpack]

/-- An encoded image is a bitmap of a size and form, with the pixels and the palette that
quantizing gave. -/
structure Encodes (e : Encoder) (image : Raster) (q : Quantized) (assets : EncodedImage) :
    Prop where
  width_eq : assets.bitmap.width = image.width
  height_eq : assets.bitmap.height = image.height
  depth_eq : assets.bitmap.depth = e.depth
  order_eq : assets.bitmap.order = e.order
  length_eq : assets.bitmap.data.length = e.depth.stride image.width * image.height
  unpack_eq : assets.bitmap.unpack = q.indices
  paletteBytes_eq : assets.paletteBytes = q.palette.toBytes e.layout

/-- What was quantized for a depth is packed at that depth, and can be unpacked again. -/
theorem exists_encodes_of_quantize (h : quantize image.pixels e.depth e.options = .ok q) :
    ∃ assets, e.encode image = .ok assets ∧ Encodes e image q assets := by
  have hlen := length_of_quantize h
  exact ⟨_, encode_of_quantize h, rfl, rfl, rfl, rfl, PackedBitmap.sized_packRows hlen,
    PackedBitmap.unpack_packRows hlen (lt_capacity_of_quantize h), rfl⟩

/-- The bytes of an encoded image are taken for its bitmap again. -/
theorem Encodes.ofBytes_eq {assets : EncodedImage} (h : Encodes e image q assets) :
    PackedBitmap.ofBytes assets.bitmap.data image.width image.height e.depth e.order =
      .ok assets.bitmap := by
  rw [PackedBitmap.ofBytes_eq_ok h.length_eq, ← h.width_eq, ← h.height_eq, ← h.depth_eq,
    ← h.order_eq]

/-- An image with few enough colors is drawn as it is. -/
theorem exists_quantize_self (e : Encoder) (image : Raster)
    (hcount : e.options.count ≤ e.depth.capacity)
    (hfits : image.pixels.eraseDups.length ≤
      if e.options.count = 0 then e.depth.capacity else e.options.count) :
    ∃ q, quantize image.pixels e.depth e.options = .ok q ∧ q.Draws image.pixels := by
  have hne : image.pixels ≠ [] := by
    have hpos := Nat.mul_pos image.width_pos image.height_pos
    rw [← image.length_pixels] at hpos
    exact List.length_pos_iff.1 hpos
  have haccepts : Quantize.Accepts image.pixels e.depth e.options := by
    refine ⟨hcount, hne, ?_⟩
    intro hzero
    rwa [if_pos hzero] at hfits
  have hself : e.options.count = 0 ∨ image.pixels.eraseDups.length ≤ e.options.count := by
    by_cases hzero : e.options.count = 0
    · exact Or.inl hzero
    · rw [if_neg hzero] at hfits
      exact Or.inr hfits
  exact haccepts.exists_draws_self Perceptual.distance hself

/-- A pixel finds its color among the entries of the palette, in front of any padding. -/
theorem getElem?_shown {pixels : List Rgba} (hdraws : q.Draws pixels)
    (hsize : q.palette.size ≤ 256) (f : Rgba → Rgba) (padding : List Rgba) {c : Rgba}
    (hc : c ∈ pixels) : (q.palette.entries.map f ++ padding)[
      (UInt8.ofNat (pixels.eraseDups.idxOf c)).toNat]? = some (f c) := by
  have hlt : pixels.eraseDups.idxOf c < pixels.eraseDups.length := idxOf_eraseDups_lt hc
  rw [hdraws.toNat_number hsize hc, hdraws.entries, List.getElem?_append_left (by simpa using hlt),
    List.getElem?_map, getElem?_idxOf_eraseDups hc]
  rfl

/-- An image that fits its palette is encoded, and what its files show is the image, each color
as the palette form shows it. -/
theorem encode_rebuild (e : Encoder) (image : Raster)
    (hcount : e.options.count ≤ e.depth.capacity)
    (hfits : image.pixels.toFinset.card ≤
      if e.options.count = 0 then e.depth.capacity else e.options.count) :
    ∃ assets, e.encode image = .ok assets ∧
      rebuild image.width image.height e.depth e.order e.format assets.bitmap.data
        assets.paletteBytes = some (image.pixels.map (e.format.shown e.cutoff)) := by
  rw [← length_eraseDups] at hfits
  obtain ⟨q, hq, hdraws⟩ := exists_quantize_self e image hcount hfits
  obtain ⟨assets, hencode, hencodes⟩ := exists_encodes_of_quantize hq
  refine ⟨assets, hencode, ?_⟩
  -- Each file is read back by itself.
  have hpalette : e.format.decode assets.paletteBytes =
      .ok (q.palette.entries.map (e.format.shown e.cutoff) ++
        List.replicate (e.layout.entryCount q.palette.size - q.palette.size)
          Rgba.transparent) := by
    rw [hencodes.paletteBytes_eq]
    exact Palette.decode_toBytes (e.fileSize_lt (Quantize.size_le_capacity hq))
  -- Together they give every pixel the color shown for it.
  have hall := mapM_eq_some_map fun c hc =>
    getElem?_shown hdraws (Quantize.size_le_256 hq) (e.format.shown e.cutoff)
      (List.replicate (e.layout.entryCount q.palette.size - q.palette.size) Rgba.transparent) hc
  rw [rebuild, hencodes.ofBytes_eq, hpalette]
  simp only [hencodes.unpack_eq, hdraws.indices, List.mapM_map]
  exact hall

/-- An image of three pixels, the middle one hardly visible. -/
def stripes : Raster where
  width := 3
  height := 1
  pixels := [⟨10, 20, 255, 255⟩, ⟨90, 90, 90, 5⟩, ⟨10, 20, 255, 255⟩]
  width_pos := by decide
  height_pos := by decide
  length_pixels := by decide

/-- A bit for each pixel, and the palette in words, filled up. -/
def wordEncoder : Encoder := ⟨.one, { count := 0 }, .highFirst, .psx16, 128, true⟩

theorem stripes_rebuild :
    wordEncoder.options.count ≤ wordEncoder.depth.capacity ∧
      stripes.pixels.toFinset.card ≤ wordEncoder.depth.capacity ∧
      ∃ assets, wordEncoder.encode stripes = .ok assets ∧
        rebuild 3 1 .one .highFirst .psx16 assets.bitmap.data assets.paletteBytes =
          some [⟨8, 16, 255, 255⟩, ⟨0, 0, 0, 0⟩, ⟨8, 16, 255, 255⟩] := by
  have hcount : wordEncoder.options.count ≤ wordEncoder.depth.capacity := by decide
  have hcolors : stripes.pixels.toFinset.card ≤ wordEncoder.depth.capacity := by decide
  exact ⟨hcount, hcolors, encode_rebuild wordEncoder stripes hcount hcolors⟩

end Encoder

end PaletteBitmap

import Mathlib
import PaletteBitmap.Encoder
import PaletteBitmap.Proofs.FirstUse
import PaletteBitmap.Proofs.IndexedPacking
import PaletteBitmap.Proofs.Search

/-!
# Drawing in a given palette

An image is drawn in the colors of a palette pixel by pixel, each in the entry nearest to it.  The
search is done once for each color: what it found is kept in a table, as a byte.  Neither shows in
the outcome.  The table holds what a search would answer, for the colors of the pixels passed and
no others (`Matching.Matched`), and a position in a palette that fits the depth is a byte.

So an image is refused only for a palette with more entries than the depth tells apart, and what is
drawn is always packed (`indexWithPalette_nearest`).
-/

namespace PaletteBitmap

namespace Encoder

/-! ## The table of known colors -/

namespace Matching

variable {search : Rgba → Nat} {m : Matching} {pixels : List Rgba} {c : Rgba}

/-- Some pixels have been looked at: their colors are known, each with the answer of a search, and
there is an index for every pixel. -/
structure Matched (search : Rgba → Nat) (m : Matching) (pixels : List Rgba) : Prop where
  known : ∀ c, m.known[c]? = if c ∈ pixels then some (UInt8.ofNat (search c)) else none
  indices : m.indices.reverse = pixels.map fun c => UInt8.ofNat (search c)

theorem matched_start (search : Rgba → Nat) : Matched search {} [] := by
  refine ⟨?_, rfl⟩
  intro c
  simp

theorem Matched.add_of_mem (h : Matched search m pixels) (hc : c ∈ pixels) :
    Matched search (m.add search c) (pixels ++ [c]) := by
  have hknown : m.known[c]? = some (UInt8.ofNat (search c)) := by
    rw [h.known, if_pos hc]
  rw [add, hknown]
  refine ⟨?_, ?_⟩
  · intro d
    simp only [h.known, FirstUse.mem_concat_iff_of_mem hc]
  · rw [List.reverse_cons, h.indices, List.map_append, List.map_singleton]

theorem Matched.add_of_notMem (h : Matched search m pixels) (hc : c ∉ pixels) :
    Matched search (m.add search c) (pixels ++ [c]) := by
  have hunknown : m.known[c]? = none := by
    rw [h.known, if_neg hc]
  rw [add, hunknown]
  refine ⟨?_, ?_⟩
  · intro d
    rw [Std.HashMap.getElem?_insert]
    by_cases hd : c = d
    · subst hd
      simp
    · have hmem : d ∈ pixels ++ [c] ↔ d ∈ pixels := by
        simp [Ne.symm hd]
      simp only [beq_iff_eq, if_neg hd, h.known, hmem]
  · rw [List.reverse_cons, h.indices, List.map_append, List.map_singleton]

theorem Matched.add (h : Matched search m pixels) (c : Rgba) :
    Matched search (m.add search c) (pixels ++ [c]) := by
  by_cases hc : c ∈ pixels
  · exact h.add_of_mem hc
  · exact h.add_of_notMem hc

/-- Looking at pixel after pixel ends with all of them looked at. -/
theorem matched_foldl (search : Rgba → Nat) (pixels : List Rgba) :
    Matched search (pixels.foldl (Matching.add search) {}) pixels := by
  induction pixels using List.reverseRecOn with
  | nil => exact matched_start search
  | append_singleton pixels c ih =>
      rw [List.foldl_append]
      exact ih.add c

end Matching

/-! ## Drawn images -/

variable {e : Encoder} {image : Raster} {palette : Palette} {m : IndexedImage}

theorem nearest_lt_size (palette : Palette) (c : Rgba) : palette.nearest c < palette.size := by
  have hlength : palette.points.length = palette.size := List.length_map _
  exact Nearest.scan_fst_lt _ _ palette.size_pos (by omega)

/-- An image drawn in a palette: every pixel in the entry nearest to its color. -/
structure DrawnIn (palette : Palette) (image : Raster) (m : IndexedImage) : Prop where
  width_eq : m.width = image.width
  height_eq : m.height = image.height
  palette_eq : m.palette = palette
  toNat_indices : m.indices.map UInt8.toNat = image.pixels.map palette.nearest

theorem DrawnIn.length_indices (h : DrawnIn palette image m) :
    m.indices.length = m.width * m.height := by
  have hlength := congrArg List.length h.toNat_indices
  rw [List.length_map, List.length_map] at hlength
  rw [hlength, image.length_pixels, h.width_eq, h.height_eq]

theorem DrawnIn.lt_size (h : DrawnIn palette image m) : ∀ i ∈ m.indices, i.toNat < palette.size := by
  intro i hi
  have hmem : i.toNat ∈ image.pixels.map palette.nearest :=
    h.toNat_indices ▸ List.mem_map_of_mem hi
  obtain ⟨c, -, hc⟩ := List.mem_map.1 hmem
  rw [← hc]
  exact nearest_lt_size palette c

theorem indexWithPalette_of_lt (h : e.depth.capacity < palette.size) (image : Raster) :
    e.indexWithPalette image palette = .error (.paletteOverflow palette.size e.depth.capacity) := by
  rw [indexWithPalette, if_pos h]

theorem exists_drawnIn (h : palette.size ≤ e.depth.capacity) (image : Raster) :
    ∃ m, e.indexWithPalette image palette = .ok m ∧ DrawnIn palette image m := by
  rw [indexWithPalette, if_neg (Nat.not_lt.2 h)]
  have hmatched := Matching.matched_foldl
    (Palette.nearestPoint Perceptual.distance palette.points) image.pixels
  refine ⟨_, rfl, rfl, rfl, rfl, ?_⟩
  dsimp only
  rw [hmatched.indices, List.map_map]
  apply List.map_congr_left
  intro c _
  -- The position is below the size of the palette, and no depth has more entries than a byte.
  have hlt : palette.nearest c < 256 :=
    Nat.lt_of_lt_of_le (nearest_lt_size palette c) (h.trans e.depth.capacity_le)
  exact UInt8.toNat_ofNat_of_lt' hlt

theorem indexWithPalette_eq_error_iff {cause : EncodeError} :
    e.indexWithPalette image palette = .error cause ↔
      e.depth.capacity < palette.size ∧
        cause = .paletteOverflow palette.size e.depth.capacity := by
  rcases Nat.lt_or_ge e.depth.capacity palette.size with hlt | hle
  · rw [indexWithPalette_of_lt hlt image]
    constructor
    · rintro ⟨⟩
      exact ⟨hlt, rfl⟩
    · rintro ⟨-, rfl⟩
      rfl
  · obtain ⟨m, hm, -⟩ := exists_drawnIn hle image
    rw [hm]
    constructor
    · rintro ⟨⟩
    · rintro ⟨hlt, -⟩
      exact absurd hlt (Nat.not_lt.2 hle)

/-! ## Packing -/

/-- An image whose indices all have an entry is packed if the depth tells all entries apart. -/
theorem exists_pack_of_lt_size (e : Encoder) (hlen : m.indices.length = m.width * m.height)
    (hmapped : ∀ i ∈ m.indices, i.toNat < m.palette.size)
    (hfits : m.palette.size ≤ e.depth.capacity) :
    ∃ assets, e.pack m = .ok assets ∧ assets.palette = m.palette ∧
      assets.bitmap.unpack = m.indices := by
  have hboth : ∀ i ∈ m.indices, i.toNat < m.palette.size ∧ i.toNat < e.depth.capacity :=
    fun i hi => ⟨hmapped i hi, Nat.lt_of_lt_of_le (hmapped i hi) hfits⟩
  obtain ⟨b, hb⟩ := (IndexedImage.exists_pack_iff (o := e.order) hlen).2 hboth
  refine ⟨⟨b, m.palette, m.palette.toBytes e.layout⟩, ?_, rfl, ?_⟩
  · rw [pack, hb]
  · rw [IndexedImage.pack, IndexedImage.unmapped?_eq_none_iff.2 hmapped] at hb
    exact PackedBitmap.unpack_of_pack hlen hb

/-! ## Main statement -/

/-- Drawing an image in a given palette fails only if the palette has more entries than the depth
tells apart.  Otherwise the image keeps its size and the palette its entries, every pixel has the
index that a search for its color finds, all indices have an entry, and what is drawn is packed,
index by index. -/
theorem indexWithPalette_nearest (e : Encoder) (image : Raster) (palette : Palette) :
    (∀ cause, e.indexWithPalette image palette = .error cause ↔
      2 ^ e.depth.bits < palette.size ∧
        cause = .paletteOverflow palette.size (2 ^ e.depth.bits)) ∧
    (palette.size ≤ 2 ^ e.depth.bits →
      ∃ m, e.indexWithPalette image palette = .ok m ∧ DrawnIn palette image m ∧
        (∀ i ∈ m.indices, i.toNat < palette.size) ∧
        ∃ assets, e.pack m = .ok assets ∧ assets.palette = palette ∧
          assets.bitmap.unpack = m.indices) := by
  refine ⟨fun _ => indexWithPalette_eq_error_iff, ?_⟩
  intro hle
  obtain ⟨m, hm, hdrawn⟩ := exists_drawnIn hle image
  have hpalette : m.palette = palette := hdrawn.palette_eq
  obtain ⟨assets, hpack, hentries, hunpack⟩ := exists_pack_of_lt_size e hdrawn.length_indices
    (hpalette.symm ▸ hdrawn.lt_size) (hpalette.symm ▸ hle)
  exact ⟨m, hm, hdrawn, hdrawn.lt_size, assets, hpack, hentries.trans hpalette, hunpack⟩

/-- Black, red and white. -/
def inks : Palette where
  entries := [Rgba.solid 0 0 0, Rgba.solid 200 0 0, Rgba.solid 255 255 255]
  entries_ne_nil := by decide
  nodup := by decide

/-- Four pixels of two grays; the last has the color of the first. -/
def ashes : Raster where
  width := 2
  height := 2
  pixels := [Rgba.solid 90 90 90, Rgba.solid 180 180 180, Rgba.solid 180 180 180,
    Rgba.solid 90 90 90]
  width_pos := Nat.two_pos
  height_pos := Nat.two_pos
  length_pixels := by decide

/-- Two bits tell the three inks apart and one bit does not.  The last pixel of the picture gets the
index of the first, which a search for its color finds as well. -/
theorem inks_matched : inks.size ≤ 2 ^ BitDepth.two.bits ∧
    (∃ m assets, (ofDepth .two).indexWithPalette ashes inks = .ok m ∧
      m.indices.map UInt8.toNat = [inks.nearest (Rgba.solid 90 90 90),
        inks.nearest (Rgba.solid 180 180 180), inks.nearest (Rgba.solid 180 180 180),
        inks.nearest (Rgba.solid 90 90 90)] ∧
      (ofDepth .two).pack m = .ok assets ∧ assets.bitmap.unpack = m.indices) ∧
    (ofDepth .one).indexWithPalette ashes inks = .error (.paletteOverflow 3 2) := by
  have hfits : inks.size ≤ 2 ^ BitDepth.two.bits := by decide
  refine ⟨hfits, ?_, ?_⟩
  · obtain ⟨m, hm, hdrawn, -, assets, hpack, -, hunpack⟩ :=
      (indexWithPalette_nearest (ofDepth .two) ashes inks).2 hfits
    exact ⟨m, assets, hm, hdrawn.toNat_indices, hpack, hunpack⟩
  · exact ((indexWithPalette_nearest (ofDepth .one) ashes inks).1 _).2 ⟨by decide, rfl⟩

end Encoder

end PaletteBitmap

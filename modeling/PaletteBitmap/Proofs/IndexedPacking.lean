import Mathlib
import PaletteBitmap.Bitmap.Indexed
import PaletteBitmap.Proofs.BitLayout
import PaletteBitmap.Proofs.FirstUse

/-!
# Indices and their palette

An index can be too large in two ways: the palette may have no entry for it, and the depth no bits.
Either bound may be the lower one.  An image is packed only if all its indices are below both, so a
bitmap that came of an image never refers past the palette of the image
(`IndexedImage.pack_within_palette`).

Which index is complained of does not follow their order alone.  An index without an entry comes
before all that only do not fit, wherever they are; among those of one kind it is the first.
-/

namespace PaletteBitmap

/-! ## The first index that is too large -/

/-- The first of some indices that is not below a bound. -/
def FirstBeyond (bound : Nat) (indices : List UInt8) (i : UInt8) : Prop :=
  bound ≤ i.toNat ∧ ∃ before after, indices = before ++ i :: after ∧ ∀ j ∈ before, j.toNat < bound

variable {bound : Nat} {indices : List UInt8} {i j : UInt8}

/-- Looking through the indices finds the first that is too large. -/
theorem find?_eq_some_iff_firstBeyond :
    indices.find? (fun j => decide (bound ≤ j.toNat)) = some i ↔ FirstBeyond bound indices i := by
  rw [List.find?_eq_some_iff_append, FirstBeyond]
  simp

theorem FirstBeyond.unique (hi : FirstBeyond bound indices i) (hj : FirstBeyond bound indices j) :
    i = j :=
  Option.some.inj ((find?_eq_some_iff_firstBeyond.2 hi).symm.trans
    (find?_eq_some_iff_firstBeyond.2 hj))

theorem FirstBeyond.not_lt (hi : FirstBeyond bound indices i) :
    ¬ ∀ j ∈ indices, j.toNat < bound := by
  rcases hi with ⟨hle, before, after, rfl, -⟩
  intro hall
  exact absurd (hall i (by simp)) (Nat.not_lt.2 hle)

theorem exists_firstBeyond_or_lt (bound : Nat) (indices : List UInt8) :
    (∃ i, FirstBeyond bound indices i) ∨ ∀ j ∈ indices, j.toNat < bound := by
  cases hfind : indices.find? (fun j => decide (bound ≤ j.toNat)) with
  | none => exact .inr (find?_eq_none_iff_lt.1 hfind)
  | some i => exact .inl ⟨i, find?_eq_some_iff_firstBeyond.1 hfind⟩

namespace IndexedImage

variable {m : IndexedImage} {d : BitDepth} {o : PixelOrder} {b : PackedBitmap}

/-! ## Looking indices up -/

theorem unmapped?_eq_none_iff :
    m.unmapped? = none ↔ ∀ j ∈ m.indices, j.toNat < m.palette.size :=
  find?_eq_none_iff_lt

theorem unmapped?_eq_some_iff : m.unmapped? = some i ↔ FirstBeyond m.palette.size m.indices i :=
  find?_eq_some_iff_firstBeyond

/-- Where every index has an entry, no pixel is transparent for want of one. -/
theorem mapM_get?_eq_toPixels (h : ∀ j ∈ m.indices, j.toNat < m.palette.size) :
    m.indices.mapM (fun j => m.palette.get? j.toNat) = some m.toPixels := by
  apply FirstUse.mapM_eq_some_map
  intro j hj
  have hlt : j.toNat < m.palette.entries.length := h j hj
  have hget : m.palette.get? j.toNat = some m.palette.entries[j.toNat] :=
    List.getElem?_eq_getElem hlt
  rw [hget, Option.getD_some]

/-! ## Packing -/

/-- How packing an image ends: with the first index that has no entry, else with the first that does
not fit the depth, else with a bitmap of all of them. -/
inductive Ends (m : IndexedImage) (d : BitDepth) : Except PackError PackedBitmap → Prop where
  | missing {i : UInt8} (hi : FirstBeyond m.palette.size m.indices i) :
      Ends m d (.error (.missingPaletteEntry i m.palette.size))
  | outOfRange {i : UInt8} (hmapped : ∀ j ∈ m.indices, j.toNat < m.palette.size)
      (hi : FirstBeyond d.capacity m.indices i) :
      Ends m d (.error (.indexOutOfRange i d.capacity))
  | packed {b : PackedBitmap} (hmapped : ∀ j ∈ m.indices, j.toNat < m.palette.size)
      (hfit : ∀ j ∈ m.indices, j.toNat < d.capacity) (hunpack : b.unpack = m.indices) :
      Ends m d (.ok b)

theorem ends_pack (hlen : m.indices.length = m.width * m.height) (d : BitDepth) (o : PixelOrder) :
    Ends m d (m.pack d o) := by
  rcases exists_firstBeyond_or_lt m.palette.size m.indices with ⟨i, hi⟩ | hmapped
  · rw [pack, unmapped?_eq_some_iff.2 hi]
    exact .missing hi
  · rw [pack, unmapped?_eq_none_iff.2 hmapped]
    rcases exists_firstBeyond_or_lt d.capacity m.indices with ⟨i, hi⟩ | hfit
    · have ⟨hle, before, after, hsplit, hbefore⟩ := hi
      simp only [PackedBitmap.pack_eq_error_of_index hsplit hlen hbefore hle]
      exact .outOfRange hmapped hi
    · simp only [PackedBitmap.pack_eq_ok hlen hfit]
      exact .packed hmapped hfit (PackedBitmap.unpack_packRows hlen hfit)

/-- An image with one index that is too large can end in one way only. -/
theorem Ends.eq_error {r : Except PackError PackedBitmap} {e : PackError} (hr : Ends m d r)
    (he : Ends m d (.error e)) : r = .error e := by
  cases he with
  | missing hi =>
      cases hr with
      | missing hi' => rw [hi.unique hi']
      | outOfRange hmapped _ => exact absurd hmapped hi.not_lt
      | packed hmapped _ _ => exact absurd hmapped hi.not_lt
  | outOfRange hmapped hi =>
      cases hr with
      | missing hi' => exact absurd hmapped hi'.not_lt
      | outOfRange _ hi' => rw [hi.unique hi']
      | packed _ hfit _ => exact absurd hfit hi.not_lt

theorem pack_eq_error_iff (hlen : m.indices.length = m.width * m.height) {e : PackError} :
    m.pack d o = .error e ↔ Ends m d (.error e) := by
  constructor
  · intro he
    rw [← he]
    exact ends_pack hlen d o
  · exact (ends_pack hlen d o).eq_error

theorem exists_pack_iff (hlen : m.indices.length = m.width * m.height) :
    (∃ b, m.pack d o = .ok b) ↔
      ∀ j ∈ m.indices, j.toNat < m.palette.size ∧ j.toNat < d.capacity := by
  have hends := ends_pack hlen d o
  constructor
  · rintro ⟨b, hb⟩
    rw [hb] at hends
    cases hends with
    | packed hmapped hfit _ => exact fun j hj => ⟨hmapped j hj, hfit j hj⟩
  · intro hall
    generalize m.pack d o = r at hends
    cases hends with
    | missing hi => exact absurd (fun j hj => (hall j hj).1) hi.not_lt
    | outOfRange _ hi => exact absurd (fun j hj => (hall j hj).2) hi.not_lt
    | packed _ _ _ => exact ⟨_, rfl⟩

/-- The pixels of a bitmap are those of the image it was packed from. -/
theorem mapM_get?_unpack (hlen : m.indices.length = m.width * m.height)
    (hb : m.pack d o = .ok b) :
    b.unpack.mapM (fun j => m.palette.get? j.toNat) = some m.toPixels := by
  have hends := ends_pack hlen d o
  rw [hb] at hends
  cases hends with
  | packed hmapped _ hunpack =>
      rw [hunpack]
      exact mapM_get?_eq_toPixels hmapped

/-! ## Main statement -/

/-- An image with an index for each pixel is packed if and only if every index has an entry in the
palette and fits the depth.  The first index without an entry is reported if there is one, and only
if there is none the first that does not fit.  Every index of a bitmap finds its entry in the
palette, and the colors found are those of the image. -/
theorem pack_within_palette (hlen : m.indices.length = m.width * m.height) (d : BitDepth)
    (o : PixelOrder) :
    ((∃ b, m.pack d o = .ok b) ↔
      ∀ j ∈ m.indices, j.toNat < m.palette.size ∧ j.toNat < 2 ^ d.bits) ∧
    (∀ i, m.pack d o = .error (.missingPaletteEntry i m.palette.size) ↔
      FirstBeyond m.palette.size m.indices i) ∧
    (∀ i, m.pack d o = .error (.indexOutOfRange i (2 ^ d.bits)) ↔
      (∀ j ∈ m.indices, j.toNat < m.palette.size) ∧ FirstBeyond (2 ^ d.bits) m.indices i) ∧
    ∀ b, m.pack d o = .ok b →
      b.unpack.mapM (fun j => m.palette.get? j.toNat) = some m.toPixels := by
  refine ⟨exists_pack_iff hlen, ?_, ?_, fun b => mapM_get?_unpack hlen⟩
  · intro i
    rw [pack_eq_error_iff hlen]
    exact ⟨fun h => by cases h; assumption, .missing⟩
  · intro i
    rw [pack_eq_error_iff hlen]
    refine ⟨?_, fun ⟨hmapped, hi⟩ => .outOfRange hmapped hi⟩
    rintro (_ | ⟨hmapped, hi⟩)
    exact ⟨hmapped, hi⟩

/-- Four pixels in three colors, more than one bit tells apart. -/
def signal (indices : List UInt8) : IndexedImage where
  indices := indices
  width := 2
  height := 2
  palette :=
    { entries := [Rgba.solid 255 0 0, Rgba.solid 255 255 0, Rgba.solid 0 255 0]
      entries_ne_nil := by decide
      nodup := by decide }

/-- Two bits hold all three colors and one bit does not.  A two that stands before a nine is never
complained of while the nine has no entry. -/
theorem signal_packed :
    (∃ b, (signal [2, 0, 1, 2]).pack .two .lowFirst = .ok b ∧
      b.unpack.mapM (fun j => (signal []).palette.get? j.toNat) =
        some [Rgba.solid 0 255 0, Rgba.solid 255 0 0, Rgba.solid 255 255 0, Rgba.solid 0 255 0]) ∧
    (signal [1, 2, 0, 2]).pack .one .highFirst = .error (.indexOutOfRange 2 2) ∧
    (signal [1, 2, 9, 8]).pack .one .highFirst = .error (.missingPaletteEntry 9 3) := by
  refine ⟨?_, ?_, ?_⟩
  · have hlen : (signal [2, 0, 1, 2]).indices.length = 2 * 2 := rfl
    obtain ⟨hpack, -, -, hcolors⟩ := pack_within_palette hlen .two .lowFirst
    obtain ⟨b, hb⟩ := hpack.2 (by decide +kernel)
    exact ⟨b, hb, hcolors b hb⟩
  · have hlen : (signal [1, 2, 0, 2]).indices.length = 2 * 2 := rfl
    obtain ⟨-, -, hrange, -⟩ := pack_within_palette hlen .one .highFirst
    exact (hrange 2).2 ⟨by decide +kernel, by decide +kernel, [1], [0, 2], rfl, by decide +kernel⟩
  · have hlen : (signal [1, 2, 9, 8]).indices.length = 2 * 2 := rfl
    obtain ⟨-, hmissing, -, -⟩ := pack_within_palette hlen .one .highFirst
    exact (hmissing 9).2 ⟨by decide, [1, 2], [8], rfl, by decide +kernel⟩

end IndexedImage

end PaletteBitmap

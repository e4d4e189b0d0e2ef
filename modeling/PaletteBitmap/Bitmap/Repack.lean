import PaletteBitmap.Bitmap.Packed

/-!
# Changing the order of a packed bitmap

The pixels of a bitmap can be packed anew in another order.  A bitmap that has the order
already is left alone, byte for byte.  Unpacking yields one value a pixel whatever the bytes
are, as long as there are as many as the rows need.
-/

namespace PaletteBitmap
namespace PackedBitmap

/-! ## How many pixels come out -/

@[simp]
theorem length_unpackByte (d : BitDepth) (o : PixelOrder) (byte : UInt8) :
    (unpackByte d o byte).length = d.perByte := by
  simp [unpackByte]

/-- A row of `stride` bytes holds at least `width` pixels. -/
theorem width_le_stride (d : BitDepth) (width : Nat) : width ≤ d.stride width * d.perByte := by
  have hp := d.perByte_pos
  have := Nat.div_add_mod (width + (d.perByte - 1)) d.perByte
  have := Nat.mod_lt (width + (d.perByte - 1)) hp
  rw [BitDepth.stride, Nat.mul_comm]
  omega

@[simp]
theorem length_unpackRow (d : BitDepth) (o : PixelOrder) (width : Nat) (row : List UInt8)
    (h : row.length = d.stride width) : (unpackRow d o width row).length = width := by
  have hlen : (row.flatMap (unpackByte d o)).length = d.stride width * d.perByte := by
    rw [List.length_flatMap, ← h]
    simp [List.map_const']
  rw [unpackRow, List.length_take, hlen]
  exact Nat.min_eq_left (width_le_stride d width)

/-- Cut evenly, every group has the full size. -/
theorem length_of_mem_groups {n : Nat} (hn : 0 < n) {k : Nat} {xs : List α}
    (h : xs.length = n * k) : ∀ g ∈ groups n xs, g.length = n := by
  induction k generalizing xs with
  | zero =>
      have : xs = [] := List.eq_nil_of_length_eq_zero (by simpa using h)
      subst this
      simp [groups]
  | succ k ih =>
      cases xs with
      | nil => simp [groups]
      | cons x xs =>
          rw [List.length_cons, Nat.mul_succ] at h
          intro g hg
          rw [groups, List.mem_cons] at hg
          rcases hg with rfl | hg
          · rw [List.length_cons, List.length_take]
            omega
          · have hrest : (xs.drop (n - 1)).length = n * k := by
              rw [List.length_drop]; omega
            exact ih hrest g hg

/-- Unpacking yields one value a pixel. -/
theorem length_unpack {m : PackedBitmap} (hm : m.Sized) :
    m.unpack.length = m.width * m.height := by
  have hdata : m.data.length = m.stride * m.height := hm
  rw [unpack]
  by_cases hw : m.width = 0
  · have hs : m.stride = 0 := by
      rw [stride, hw, BitDepth.stride, Nat.zero_add]
      exact Nat.div_eq_of_lt (Nat.sub_lt m.depth.perByte_pos Nat.one_pos)
    have hd : m.data = [] := by
      apply List.eq_nil_of_length_eq_zero
      rw [hdata, hs, Nat.zero_mul]
    simp [hd, groups, hw]
  · have hs : 0 < m.stride := by
      have := width_le_stride m.depth m.width
      rcases Nat.eq_zero_or_pos (m.depth.stride m.width) with h | h
      · rw [h] at this; omega
      · exact h
    have hg : (groups m.stride m.data).length = m.height := by
      rw [length_groups hs, hdata, Nat.add_comm, Nat.add_mul_div_left _ _ hs,
        Nat.div_eq_of_lt (by omega), Nat.zero_add]
    have hrows : ∀ row ∈ groups m.stride m.data,
        (unpackRow m.depth m.order m.width row).length = m.width := fun row hrow =>
      length_unpackRow _ _ _ _ (length_of_mem_groups hs hdata row hrow)
    rw [List.take_of_length_le (by omega), List.length_flatMap,
      List.map_congr_left hrows, List.map_const', List.sum_replicate_nat, hg, Nat.mul_comm]

/-! ## Repacking -/

def repack (m : PackedBitmap) (o : PixelOrder) : PackedBitmap :=
  if o = m.order then m
  else
    { width := m.width
      height := m.height
      depth := m.depth
      order := o
      data := packRows m.depth o m.width m.unpack }

end PackedBitmap
end PaletteBitmap

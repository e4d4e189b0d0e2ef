import Mathlib
import PaletteBitmap.Proofs.BitLayout

/-!
# Repacked bitmaps

A repacked bitmap has the pixels it had before, now in the order asked for.  It has the bytes that
packing these pixels would give as well, with one exception: a bitmap that is in that order already
is not packed again, and keeps what its bytes have beyond the pixels.

What was packed here has nothing there, so the exception shows only in bytes from elsewhere
(`PackedBitmap.repack_eq_packed_iff`).
-/

namespace PaletteBitmap
namespace PackedBitmap

variable {m : PackedBitmap} {o : PixelOrder}

/-! ## Size and form -/

@[simp]
theorem width_repack (m : PackedBitmap) (o : PixelOrder) : (m.repack o).width = m.width := by
  rw [repack]
  split <;> rfl

@[simp]
theorem height_repack (m : PackedBitmap) (o : PixelOrder) : (m.repack o).height = m.height := by
  rw [repack]
  split <;> rfl

@[simp]
theorem depth_repack (m : PackedBitmap) (o : PixelOrder) : (m.repack o).depth = m.depth := by
  rw [repack]
  split <;> rfl

@[simp]
theorem order_repack (m : PackedBitmap) (o : PixelOrder) : (m.repack o).order = o := by
  rw [repack]
  split
  · next h => exact h.symm
  · rfl

/-! ## Pixels -/

theorem Sized.repack (hm : m.Sized) (o : PixelOrder) : (m.repack o).Sized := by
  rw [PackedBitmap.repack]
  split
  · exact hm
  · exact sized_packRows (length_unpack hm)

/-- Another order does not change the pixels, and bits that no pixel has do not come in. -/
theorem unpack_repack (hm : m.Sized) (o : PixelOrder) : (m.repack o).unpack = m.unpack := by
  rw [repack]
  split
  · rfl
  · exact unpack_packRows (length_unpack hm) fun _ => lt_capacity_of_mem_unpack

theorem at?_repack (hm : m.Sized) (o : PixelOrder) (x y : Nat) :
    (m.repack o).at? x y = m.at? x y := by
  by_cases h : x < m.width ∧ y < m.height
  · rw [at?_eq_getElem?_unpack (hm.repack o) (by simpa using h.1) (by simpa using h.2),
      at?_eq_getElem?_unpack hm h.1 h.2, unpack_repack hm, width_repack]
  · rw [at?, at?, width_repack, height_repack, if_neg h, if_neg h]

/-! ## Bytes -/

theorem repack_self (m : PackedBitmap) : m.repack m.order = m := by
  rw [repack, if_pos rfl]

/-- In another order, repacking is packing. -/
theorem pack_eq_repack_of_ne (hm : m.Sized) (h : o ≠ m.order) :
    pack m.unpack m.width m.height m.depth o = .ok (m.repack o) := by
  rw [repack, if_neg h]
  exact pack_eq_ok (length_unpack hm) fun _ => lt_capacity_of_mem_unpack

/-- A clean bitmap is what packing its pixels gives. -/
theorem Clean.pack_eq_self (hm : m.Clean) (hsized : m.Sized) :
    pack m.unpack m.width m.height m.depth m.order = .ok m := by
  have hlen := length_unpack hsized
  have hlt : ∀ v ∈ m.unpack, v.toNat < m.depth.capacity := fun _ => lt_capacity_of_mem_unpack
  have hbytes : packRows m.depth m.order m.width m.unpack = m.data :=
    hm.data_eq (clean_packRows hlt) hsized (sized_packRows hlen) (unpack_packRows hlen hlt)
  rw [pack_eq_ok hlen hlt]
  -- Size, depth and order were given to packing, so only the bytes are to be compared.
  cases m
  simpa using hbytes

/-- Repacking is packing the pixels, unless it is to keep bits that no pixel has. -/
theorem pack_eq_repack_iff (hm : m.Sized) :
    pack m.unpack m.width m.height m.depth o = .ok (m.repack o) ↔ (o = m.order → m.Clean) := by
  constructor
  · rintro hpack rfl
    rw [repack_self] at hpack
    exact clean_of_pack hpack
  · intro hclean
    by_cases h : o = m.order
    · subst h
      rw [repack_self]
      exact (hclean rfl).pack_eq_self hm
    · exact pack_eq_repack_of_ne hm h

/-! ## Main statement -/

/-- A bitmap of as many bytes as its rows need that is repacked has its size, its depth and its
pixels still, in the order asked for.  Packing these pixels anew succeeds, and leaves no bit set
that no pixel has.  The bytes are the same if and only if the bitmap has no such bit or is in
another order; so they are the same whenever the bitmap was packed here. -/
theorem repack_eq_packed_iff (m : PackedBitmap) (o : PixelOrder) (hm : m.Sized) :
    (m.repack o).width = m.width ∧ (m.repack o).height = m.height ∧
      (m.repack o).depth = m.depth ∧ (m.repack o).order = o ∧ (m.repack o).unpack = m.unpack ∧
      (∃ n, pack m.unpack m.width m.height m.depth o = .ok n ∧ n.Clean ∧
        ((m.repack o).data = n.data ↔ (o = m.order → m.Clean))) ∧
      ∀ indices, pack indices m.width m.height m.depth m.order = .ok m →
        pack m.unpack m.width m.height m.depth o = .ok (m.repack o) := by
  refine ⟨width_repack m o, height_repack m o, depth_repack m o, order_repack m o,
    unpack_repack hm o, ?_, ?_⟩
  · by_cases h : o = m.order
    · subst h
      rcases exists_pack_unpack hm with ⟨n, hn, hdata⟩
      refine ⟨n, hn, clean_of_pack hn, ?_⟩
      rw [repack_self, eq_comm, hdata]
      exact ⟨fun hclean _ => hclean, fun hclean => hclean rfl⟩
    · have hpack := pack_eq_repack_of_ne hm h
      exact ⟨m.repack o, hpack, clean_of_pack hpack,
        iff_of_true rfl fun hsame => absurd hsame h⟩
  · intro indices hindices
    exact (pack_eq_repack_iff hm).2 fun _ => clean_of_pack hindices

/-- Three pixels of four bits turned round, byte by byte, and a stray bit pattern that is lost. -/
theorem nibbles_turned : Sized ⟨3, 1, .four, .lowFirst, [0x21, 0xF3]⟩ ∧
    (repack ⟨3, 1, .four, .lowFirst, [0x21, 0xF3]⟩ .highFirst).data = [0x12, 0x30] ∧
    (repack ⟨3, 1, .four, .lowFirst, [0x21, 0xF3]⟩ .highFirst).unpack = [1, 2, 3] ∧
    ∃ n, pack [1, 2, 3] 3 1 .four .highFirst = .ok n ∧ n.Clean ∧ n.data = [0x12, 0x30] := by
  have hsized : Sized ⟨3, 1, .four, .lowFirst, [0x21, 0xF3]⟩ := by decide
  have hunpack : unpack ⟨3, 1, .four, .lowFirst, [0x21, 0xF3]⟩ = [1, 2, 3] := by cbv
  have hdata : (repack ⟨3, 1, .four, .lowFirst, [0x21, 0xF3]⟩ .highFirst).data = [0x12, 0x30] := by
    cbv
  obtain ⟨-, -, -, -, hsame, ⟨n, hpack, hclean, hbytes⟩, -⟩ :=
    repack_eq_packed_iff ⟨3, 1, .four, .lowFirst, [0x21, 0xF3]⟩ .highFirst hsized
  rw [hunpack] at hsame hpack
  -- The order is another one, so there is nothing to show of the bits behind the pixels.
  have hother : PixelOrder.highFirst ≠ .lowFirst := by decide
  exact ⟨hsized, hdata, hsame, n, hpack, hclean,
    (hbytes.2 fun heq => absurd heq hother).symm.trans hdata⟩

/-- Three pixels of four bits, with a stray bit pattern after them that repacking does not clear. -/
theorem stray_bits_kept :
    ∃ m n, ofBytes [0x21, 0xF3] 3 1 .four .lowFirst = .ok m ∧ m.unpack = [1, 2, 3] ∧
      (m.repack .lowFirst).data = [0x21, 0xF3] ∧
      pack m.unpack 3 1 .four .lowFirst = .ok n ∧ n.data = [0x21, 0x03] := by
  have hbytes : ofBytes [0x21, 0xF3] 3 1 .four .lowFirst =
      .ok ⟨3, 1, .four, .lowFirst, [0x21, 0xF3]⟩ := by cbv
  have hunpack : unpack ⟨3, 1, .four, .lowFirst, [0x21, 0xF3]⟩ = [1, 2, 3] := by cbv
  have hpack : pack [1, 2, 3] 3 1 .four .lowFirst =
      .ok ⟨3, 1, .four, .lowFirst, [0x21, 0x03]⟩ := by cbv
  exact ⟨_, _, hbytes, hunpack, rfl, hunpack ▸ hpack, rfl⟩

end PackedBitmap
end PaletteBitmap

import PaletteBitmap.Bitmap.Repack

/-!
# Packed bits

Where the bits of a pixel are in a packed byte, and that unpacking finds them there.

A pixel in slot `s` owns the bits from `PixelOrder.shift` on, as many as the depth has.  Slots
do not overlap (`shift_add_eq_iff`), so writing one pixel leaves the bits of the others alone
(`testBit_packByte`).  Row by row this makes `PackedBitmap.unpack` the inverse of packing for
every width: what the last byte of a row holds beyond the width is zero and is cut off again.
-/

namespace PaletteBitmap

/-! ## Slots -/

theorem BitDepth.testBit_mask (d : BitDepth) (i : Nat) :
    d.mask.toNat.testBit i = decide (i < d.bits) := by
  have hmask : d.mask.toNat = 2 ^ d.bits - 1 := by
    cases d <;> rfl
  rw [hmask, Nat.testBit_two_pow_sub_one]

theorem BitDepth.bits_pos (d : BitDepth) : 0 < d.bits := by
  cases d <;> decide

namespace PixelOrder

variable (o : PixelOrder) (d : BitDepth) {s t i : Nat}

theorem shift_add_lt (hs : s < d.perByte) (hi : i < d.bits) : o.shift d s + i < 8 := by
  cases d <;> cases o <;> simp [shift, BitDepth.perByte, BitDepth.bits] at hs hi ⊢ <;> omega

/-- The bits of one slot are not among those of another. -/
theorem shift_add_eq_iff (hs : s < d.perByte) (ht : t < d.perByte) (hi : i < d.bits) :
    o.shift d t ≤ o.shift d s + i ∧ o.shift d s + i - o.shift d t < d.bits ↔ s = t := by
  cases d <;> cases o <;> simp [shift, BitDepth.perByte, BitDepth.bits] at hs ht hi ⊢ <;> omega

end PixelOrder

/-! ## Indices below a bound -/

/-- A search for an index that is too large finds none if and only if all are below the bound. -/
theorem find?_eq_none_iff_lt {bound : Nat} {indices : List UInt8} :
    indices.find? (fun i => decide (bound ≤ i.toNat)) = none ↔ ∀ i ∈ indices, i.toNat < bound := by
  simp [List.find?_eq_none]

namespace PackedBitmap

variable {d : BitDepth} {o : PixelOrder}

/-! ## Bits of a byte -/

theorem testBit_masked (x : UInt8) (i : Nat) :
    (x &&& d.mask).toNat.testBit i = (x.toNat.testBit i && decide (i < d.bits)) := by
  rw [UInt8.toNat_and, Nat.testBit_and, d.testBit_mask]

theorem testBit_slotValue (byte : UInt8) {s : Nat} (hs : s < d.perByte) (i : Nat) :
    (slotValue d o byte s).toNat.testBit i =
      (byte.toNat.testBit (o.shift d s + i) && decide (i < d.bits)) := by
  have hshift : o.shift d s < 8 := by
    simpa using o.shift_add_lt d hs d.bits_pos
  have hnat : (UInt8.ofNat (o.shift d s)).toNat % 8 = o.shift d s := by
    rw [UInt8.toNat_ofNat']
    omega
  rw [slotValue, testBit_masked, UInt8.toNat_shiftRight, hnat, Nat.testBit_shiftRight]

/-- A pixel that is moved to its slot sets bits of that slot only. -/
theorem testBit_moved (x : UInt8) {s t i : Nat} (hs : s < d.perByte) (ht : t < d.perByte)
    (hi : i < d.bits) :
    ((x &&& d.mask) <<< UInt8.ofNat (o.shift d t)).toNat.testBit (o.shift d s + i) =
      (decide (s = t) && x.toNat.testBit i) := by
  have hlt := o.shift_add_lt d hs hi
  have hshift : o.shift d t < 8 := by
    have := o.shift_add_lt d ht hi
    omega
  have hnat : (UInt8.ofNat (o.shift d t)).toNat % 8 = o.shift d t := by
    rw [UInt8.toNat_ofNat']
    omega
  rw [UInt8.toNat_shiftLeft, hnat, Nat.testBit_mod_two_pow, Nat.testBit_shiftLeft,
    testBit_masked]
  have hslot := o.shift_add_eq_iff d hs ht hi
  by_cases hst : s = t
  · subst hst
    simp [hlt, hi]
  · -- The bit asked for lies below the slot, or above it where the mask has cleared it.
    have hfalse : ¬ (o.shift d t ≤ o.shift d s + i ∧
        o.shift d s + i - o.shift d t < d.bits) := fun h => hst (hslot.1 h)
    simp only [hst, decide_false, Bool.false_and]
    by_cases hle : o.shift d t ≤ o.shift d s + i
    · have hge : ¬ o.shift d s + i - o.shift d t < d.bits := fun h => hfalse ⟨hle, h⟩
      simp [hge]
    · simp [hle]

/-- The bits of a slot are those of the pixel packed there, and zero where there is none. -/
theorem testBit_packByte {slot s i : Nat} (xs : List UInt8) (hs : s < d.perByte)
    (hi : i < d.bits) (hfit : slot + xs.length ≤ d.perByte) :
    (packByte d o slot xs).toNat.testBit (o.shift d s + i) =
      (decide (slot ≤ s) && (xs.getD (s - slot) 0).toNat.testBit i) := by
  induction xs generalizing slot with
  | nil => simp [packByte]
  | cons x rest ih =>
      rw [List.length_cons] at hfit
      have hslot : slot < d.perByte := by omega
      rw [packByte, UInt8.toNat_or, Nat.testBit_or, testBit_moved x hs hslot hi,
        ih (by omega)]
      -- The slot asked for is behind us, the one being written, or still to come.
      rcases Nat.lt_trichotomy s slot with hlt | heq | hgt
      · simp [Nat.ne_of_lt hlt, Nat.not_le.2 hlt, Nat.not_le.2 (Nat.lt_succ_of_lt hlt)]
      · subst heq
        have hnext : ¬ s + 1 ≤ s := Nat.not_succ_le_self s
        simp [hnext]
      · have hsub : s - slot = s - (slot + 1) + 1 := by omega
        simp [Nat.ne_of_gt hgt, Nat.le_of_lt hgt, Nat.succ_le_of_lt hgt, hsub]

/-- A slot gives back the pixel packed there. -/
theorem slotValue_packByte {s : Nat} (xs : List UInt8) (hs : s < d.perByte)
    (hfit : xs.length ≤ d.perByte) (hxs : ∀ x ∈ xs, x.toNat < d.capacity) :
    slotValue d o (packByte d o 0 xs) s = xs.getD s 0 := by
  have hlt : (xs.getD s 0).toNat < 2 ^ d.bits := by
    by_cases hlen : s < xs.length
    · rw [List.getD_eq_getElem?_getD, List.getElem?_eq_getElem hlen]
      exact hxs _ (List.getElem_mem hlen)
    · rw [List.getD_eq_getElem?_getD, List.getElem?_eq_none (Nat.not_lt.1 hlen)]
      exact Nat.two_pow_pos d.bits
  apply UInt8.toNat_inj.1
  apply Nat.eq_of_testBit_eq
  intro i
  rw [testBit_slotValue _ hs]
  by_cases hi : i < d.bits
  · rw [testBit_packByte xs hs hi (by omega)]
    simp [hi]
  · -- Beyond its bits neither the slot nor a pixel that fits has anything.
    have hbig : (xs.getD s 0).toNat < 2 ^ i :=
      Nat.lt_of_lt_of_le hlt (Nat.pow_le_pow_right Nat.two_pos (Nat.not_lt.1 hi))
    rw [Nat.testBit_lt_two_pow hbig]
    simp [hi]

/-- A byte gives back its pixels, and zeros for the slots that were left free. -/
theorem unpackByte_packByte (xs : List UInt8) (hfit : xs.length ≤ d.perByte)
    (hxs : ∀ x ∈ xs, x.toNat < d.capacity) :
    unpackByte d o (packByte d o 0 xs) = xs ++ List.replicate (d.perByte - xs.length) 0 := by
  apply List.ext_getElem
  · simp only [length_unpackByte, List.length_append, List.length_replicate]
    omega
  · intro s h₁ h₂
    have hs : s < d.perByte := by simpa using h₁
    have hslot := slotValue_packByte (o := o) xs hs hfit hxs
    rw [List.getD_eq_getElem?_getD] at hslot
    simp only [unpackByte, List.getElem_map, List.getElem_range, hslot, List.getElem_append]
    split
    · next hlen => rw [List.getElem?_eq_getElem hlen, Option.getD_some]
    · next hlen =>
      rw [List.getElem?_eq_none (Nat.not_lt.1 hlen), List.getElem_replicate, Option.getD_none]

/-! ## Rows -/

/-- The bytes of a row hold its pixels, and zeros at most after them. -/
theorem exists_unpack_packRow (row : List UInt8) (hrow : ∀ x ∈ row, x.toNat < d.capacity) :
    ∃ k, (packRow d o row).flatMap (unpackByte d o) = row ++ List.replicate k 0 := by
  have hper := d.perByte_pos
  induction row using groups.induct d.perByte with
  | case1 => exact ⟨0, by simp [packRow, groups]⟩
  | case2 x xs ih =>
      have hhead : (x :: xs.take (d.perByte - 1)).length ≤ d.perByte := by
        rw [List.length_cons, List.length_take]
        omega
      have hbyte := unpackByte_packByte (o := o) (x :: xs.take (d.perByte - 1)) hhead fun y hy => by
        rcases List.mem_cons.1 hy with rfl | hmem
        · exact hrow y List.mem_cons_self
        · exact hrow y (List.mem_cons_of_mem x (List.mem_of_mem_take hmem))
      have hunfold : (packRow d o (x :: xs)).flatMap (unpackByte d o) =
          unpackByte d o (packByte d o 0 (x :: xs.take (d.perByte - 1))) ++
            (packRow d o (xs.drop (d.perByte - 1))).flatMap (unpackByte d o) := by
        rw [packRow, groups, List.map_cons, List.flatMap_cons]
        rfl
      rw [hunfold, hbyte]
      by_cases hfull : d.perByte - 1 ≤ xs.length
      · -- A full byte has no slot to spare, so the rest follows directly.
        obtain ⟨k, hk⟩ := ih fun y hy =>
          hrow y (List.mem_cons_of_mem x (List.mem_of_mem_drop hy))
        have hnone : d.perByte - (x :: xs.take (d.perByte - 1)).length = 0 := by
          rw [List.length_cons, List.length_take]
          omega
        refine ⟨k, ?_⟩
        rw [hk, hnone, List.replicate_zero, List.append_nil, ← List.append_assoc,
          List.cons_append, List.take_append_drop]
      · -- The last byte of the row has slots to spare, and nothing comes after it.
        have hdrop : xs.drop (d.perByte - 1) = [] := List.drop_eq_nil_of_le (by omega)
        have htake : xs.take (d.perByte - 1) = xs := List.take_of_length_le (by omega)
        refine ⟨d.perByte - (x :: xs).length, ?_⟩
        rw [hdrop, htake]
        simp [packRow, groups]

theorem unpackRow_packRow {width : Nat} (row : List UInt8) (hlen : row.length = width)
    (hrow : ∀ x ∈ row, x.toNat < d.capacity) :
    unpackRow d o width (packRow d o row) = row := by
  obtain ⟨k, hk⟩ := exists_unpack_packRow (o := o) row hrow
  rw [unpackRow, hk, ← hlen, List.take_left]

/-! ## Bitmaps -/

/-- Rows of one length are found again when they stand one after another. -/
theorem groups_flatten {α : Type} {n : Nat} (hn : 0 < n) {rows : List (List α)}
    (hrows : ∀ row ∈ rows, row.length = n) : groups n rows.flatten = rows := by
  induction rows with
  | nil => simp [groups]
  | cons row rows ih =>
      have hlen := hrows row List.mem_cons_self
      have hrest := ih fun r hr => hrows r (List.mem_cons_of_mem row hr)
      cases row with
      | nil =>
          rw [List.length_nil] at hlen
          omega
      | cons x xs =>
          rw [List.length_cons] at hlen
          have hxs : xs.length = n - 1 := by omega
          rw [List.flatten_cons, List.cons_append, groups, ← hxs, List.take_left,
            List.drop_left, hrest]

theorem stride_pos (d : BitDepth) {width : Nat} (h : 0 < width) : 0 < d.stride width := by
  have hle := width_le_stride d width
  rcases Nat.eq_zero_or_pos (d.stride width) with hzero | hpos
  · rw [hzero] at hle
    omega
  · exact hpos

/-- A full image packs to the bytes that its rows need. -/
theorem sized_packRows {width height : Nat} {indices : List UInt8}
    (hlen : indices.length = width * height) :
    Sized ⟨width, height, d, o, packRows d o width indices⟩ :=
  length_packRows d o width height indices hlen

theorem unpack_packRows {width height : Nat} {indices : List UInt8}
    (hlen : indices.length = width * height) (hlt : ∀ i ∈ indices, i.toNat < d.capacity) :
    unpack ⟨width, height, d, o, packRows d o width indices⟩ = indices := by
  rcases Nat.eq_zero_or_pos width with hzero | hpos
  · -- Without columns there are neither pixels nor bytes.
    have hnone : indices = [] := List.eq_nil_of_length_eq_zero (by rw [hlen, hzero, Nat.zero_mul])
    subst hnone
    apply List.eq_nil_of_length_eq_zero
    rw [length_unpack (sized_packRows hlen)]
    exact hlen.symm
  · have hrows : ∀ row ∈ groups width indices, row.length = width :=
      length_of_mem_groups hpos hlen
    have hcount : (groups width indices).length = height := by
      rw [length_groups hpos, hlen, Nat.add_comm, Nat.add_mul_div_left _ _ hpos,
        Nat.div_eq_of_lt (by omega), Nat.zero_add]
    have hpacked : groups (d.stride width) (packRows d o width indices) =
        (groups width indices).map (packRow d o) := by
      rw [packRows, List.flatMap_def]
      apply groups_flatten (stride_pos d hpos)
      intro bytes hbytes
      obtain ⟨row, hrow, rfl⟩ := List.mem_map.1 hbytes
      rw [length_packRow, hrows row hrow]
    have hback : ∀ row ∈ groups width indices,
        unpackRow d o width (packRow d o row) = row := by
      intro row hrow
      apply unpackRow_packRow row (hrows row hrow)
      intro i hi
      apply hlt
      rw [← flatten_groups width indices]
      exact List.mem_flatten.2 ⟨row, hrow, hi⟩
    -- The bytes are cut into rows again, and every row is unpacked by itself.
    calc
      unpack ⟨width, height, d, o, packRows d o width indices⟩
          = (((groups width indices).map (packRow d o)).take height).flatMap
              (unpackRow d o width) := by
            rw [← hpacked]
            rfl
      _ = (groups width indices).flatMap fun row => unpackRow d o width (packRow d o row) := by
            rw [List.take_of_length_le (by simp [hcount]), List.flatMap_map]
      _ = (groups width indices).flatten := by
            rw [List.flatMap_def, List.map_congr_left hback, List.map_id']
      _ = indices := flatten_groups width indices

theorem pack_eq_ok {width height : Nat} {indices : List UInt8}
    (hlen : indices.length = width * height) (hlt : ∀ i ∈ indices, i.toNat < d.capacity) :
    pack indices width height d o = .ok ⟨width, height, d, o, packRows d o width indices⟩ := by
  have hnone := find?_eq_none_iff_lt.2 hlt
  rw [pack, if_pos (congrArg wordSize hlen)]
  split
  · next i hi =>
    rw [hnone] at hi
    cases hi
  · rfl

end PackedBitmap

end PaletteBitmap

import Mathlib
import PaletteBitmap.Proofs.Packing

/-!
# Where the bits of a bitmap are

Three computations of addresses have to agree: packing goes by the groups of pixels that share a
byte, unpacking by the bytes of a row, and looking up one pixel goes straight to its byte.  All
are tied here to one description: the pixel in column `x` has its bits in byte `x * bits / 8` of
its row, `PixelOrder.offset` bits from the low end.

A bit of a row that no pixel has (`Taken`) is zero in a bitmap that is `Clean`.  What was packed
here is clean, and a clean bitmap is determined by its pixels (`Clean.data_eq`); so packing the
pixels of a bitmap again gives its bytes back if and only if it was clean.

All of this is about bitmaps that have the bytes their rows need (`Sized`).  What is packed is such
a bitmap as long as the product of the sides has room in a word; `sides_lost` and `rows_made_up`
show what is accepted beyond that.
-/

namespace PaletteBitmap

/-! ## Lists of equal pieces -/

theorem getElem?_flatMap_of_length {α β : Type} {f : α → List β} {n : Nat} {xs : List α}
    (hf : ∀ a ∈ xs, (f a).length = n) {j : Nat} (hj : j < n) (i : Nat) :
    (xs.flatMap f)[i * n + j]? = xs[i]?.bind fun a => (f a)[j]? := by
  induction xs generalizing i with
  | nil => simp
  | cons a xs ih =>
      have ha := hf a List.mem_cons_self
      have hrest := ih fun b hb => hf b (List.mem_cons_of_mem a hb)
      rw [List.flatMap_cons]
      cases i with
      | zero => simp [List.getElem?_append_left (ha ▸ hj)]
      | succ i =>
          have hle : (f a).length ≤ (i + 1) * n + j := by
            rw [ha, Nat.succ_mul]
            omega
          have hsub : (i + 1) * n + j - (f a).length = i * n + j := by
            rw [ha, Nat.succ_mul]
            omega
          rw [List.getElem?_append_right hle, hsub, hrest, List.getElem?_cons_succ]

/-- An element of a list is one of a group. -/
theorem getElem?_eq_bind_groups {α : Type} {n k : Nat} {xs : List α} (hlen : xs.length = n * k)
    {j : Nat} (hj : j < n) (i : Nat) : xs[i * n + j]? = (groups n xs)[i]?.bind (·[j]?) := by
  have hn : 0 < n := Nat.lt_of_le_of_lt (Nat.zero_le j) hj
  have hflat : xs = (groups n xs).flatMap id := by
    rw [List.flatMap_id, flatten_groups]
  calc
    xs[i * n + j]? = ((groups n xs).flatMap id)[i * n + j]? := by rw [← hflat]
    _ = (groups n xs)[i]?.bind (·[j]?) :=
        getElem?_flatMap_of_length (PackedBitmap.length_of_mem_groups hn hlen) hj i

/-- A first group is full, or nothing is left for another one. -/
theorem full_or_last {α : Type} {width : Nat} (hw : 0 < width) (x : α) (xs : List α) :
    (x :: xs.take (width - 1)).length = width ∨ xs.drop (width - 1) = [] := by
  rw [List.length_cons, List.length_take, List.drop_eq_nil_iff]
  omega

/-- Where all groups but the last give pieces of one length, and the last one no more, an element at
a place within a piece comes from a group. -/
theorem exists_group_of_getElem?_flatMap {α β : Type} {f : List α → List β} {width n : Nat}
    (hw : 0 < width) (hfull : ∀ g : List α, g.length = width → (f g).length = n)
    (hpart : ∀ g : List α, g.length ≤ width → (f g).length ≤ n) {xs : List α} {i j : Nat}
    (hj : j < n) {b : β} (h : ((groups width xs).flatMap f)[i * n + j]? = some b) :
    ∃ g ∈ groups width xs, g.length ≤ width ∧ (f g)[j]? = some b := by
  induction xs using groups.induct width generalizing i with
  | case1 => simp [groups] at h
  | case2 x xs ih =>
      have hhead : (x :: xs.take (width - 1)).length ≤ width := by
        rw [List.length_cons, List.length_take]
        omega
      rw [groups, List.flatMap_cons] at h
      rw [groups]
      rcases full_or_last hw x xs with hlen | hlast
      · have hpiece := hfull _ hlen
        cases i with
        | zero =>
            rw [Nat.zero_mul, Nat.zero_add, List.getElem?_append_left (hpiece ▸ hj)] at h
            exact ⟨_, List.mem_cons_self, hhead, h⟩
        | succ i =>
            have hplace : (i + 1) * n + j = n + (i * n + j) := by
              rw [Nat.succ_mul]
              omega
            rw [hplace, ← hpiece, List.getElem?_append_right (Nat.le_add_right _ _),
              Nat.add_sub_cancel_left, hpiece] at h
            obtain ⟨g, hg, hwidth, hat⟩ := ih h
            exact ⟨g, List.mem_cons_of_mem _ hg, hwidth, hat⟩
      · -- The only piece is no longer than the others, so the place is in the first of them.
        rw [hlast, groups, List.flatMap_nil, List.append_nil] at h
        obtain ⟨hin, -⟩ := List.getElem?_eq_some_iff.1 h
        have hpiece := hpart _ hhead
        have hfirst : i = 0 := by
          by_contra hi
          have hle := Nat.le_mul_of_pos_left n (Nat.pos_of_ne_zero hi)
          omega
        rw [hfirst, Nat.zero_mul, Nat.zero_add] at h
        exact ⟨_, List.mem_cons_self, hhead, h⟩

/-! ## Places -/

/-- How far the pixel in column `x` lies from the low end of its byte, in bits. -/
def PixelOrder.offset (o : PixelOrder) (d : BitDepth) (x : Nat) : Nat :=
  match o with
  | lowFirst => x * d.bits % 8
  | highFirst => 8 - d.bits - x * d.bits % 8

namespace BitDepth

variable (d : BitDepth)

theorem bits_mul_perByte : d.bits * d.perByte = 8 := by
  cases d <;> rfl

/-- The stride is the number of bits of a row in bytes, rounded up. -/
theorem stride_eq (width : Nat) : d.stride width = (width * d.bits + 7) / 8 := by
  cases d <;> simp only [stride, perByte, bits] <;> omega

theorem mul_bits_div (x : Nat) : x * d.bits / 8 = x / d.perByte := by
  cases d <;> simp only [perByte, bits] <;> omega

theorem div_perByte_lt_stride {x width : Nat} (hx : x < width) :
    x / d.perByte < d.stride width := by
  cases d <;> simp only [stride, perByte, bits] <;> omega

end BitDepth

namespace PixelOrder

variable (o : PixelOrder) (d : BitDepth)

theorem offset_eq_shift (x : Nat) : o.offset d x = o.shift d (x % d.perByte) := by
  cases d <;> cases o <;> simp only [offset, shift, BitDepth.perByte, BitDepth.bits] <;> omega

/-- Every bit of a byte is one of a slot. -/
theorem exists_slot {k : Nat} (hk : k < 8) :
    ∃ s < d.perByte, ∃ i < d.bits, o.shift d s + i = k := by
  have hmod := Nat.mod_lt k d.bits_pos
  have hdiv := Nat.div_add_mod k d.bits
  have hlt : k / d.bits < d.perByte := by
    rw [Nat.div_lt_iff_lt_mul d.bits_pos, Nat.mul_comm, d.bits_mul_perByte]
    exact hk
  cases o with
  | lowFirst =>
      refine ⟨k / d.bits, hlt, k % d.bits, hmod, ?_⟩
      rw [shift, Nat.mul_comm, hdiv]
  | highFirst =>
      -- Counted from the other end, the slots come in the opposite order.
      have hslot : d.perByte - 1 - k / d.bits < d.perByte :=
        Nat.lt_of_le_of_lt (Nat.sub_le _ _) (Nat.sub_lt d.perByte_pos Nat.one_pos)
      refine ⟨d.perByte - 1 - k / d.bits, hslot, k % d.bits, hmod, ?_⟩
      cases d <;> simp only [shift, BitDepth.perByte, BitDepth.bits] at hlt ⊢ <;> omega

end PixelOrder

namespace PackedBitmap

variable {d : BitDepth} {o : PixelOrder} {m : PackedBitmap} {x y : Nat}

/-- Whether a pixel of a row has bit `k` of byte `j`. -/
def Taken (d : BitDepth) (o : PixelOrder) (width j k : Nat) : Prop :=
  ∃ x < width, x * d.bits / 8 = j ∧ ∃ i < d.bits, o.offset d x + i = k

/-- All bits that no pixel has are zero. -/
def Clean (m : PackedBitmap) : Prop :=
  ∀ y < m.height, ∀ j < m.stride, ∀ k < 8, ¬ Taken m.depth m.order m.width j k →
    ∀ byte, m.data[y * m.stride + j]? = some byte → byte.toNat.testBit k = false

/-! ## Pixels -/

theorem toNat_slotValue (byte : UInt8) {s : Nat} (hs : s < d.perByte) :
    (slotValue d o byte s).toNat = byte.toNat >>> o.shift d s % 2 ^ d.bits := by
  apply Nat.eq_of_testBit_eq
  intro i
  rw [testBit_slotValue byte hs, Nat.testBit_mod_two_pow, Nat.testBit_shiftRight, Bool.and_comm]

theorem slotValue_lt (byte : UInt8) {s : Nat} (hs : s < d.perByte) :
    (slotValue d o byte s).toNat < d.capacity := by
  rw [toNat_slotValue byte hs]
  exact Nat.mod_lt _ (Nat.two_pow_pos d.bits)

theorem getElem?_unpackByte (byte : UInt8) {s : Nat} (hs : s < d.perByte) :
    (unpackByte d o byte)[s]? = some (slotValue d o byte s) := by
  simp [unpackByte, hs]

/-- A row is unpacked byte by byte. -/
theorem getElem?_flatMap_unpackByte (row : List UInt8) {s : Nat} (hs : s < d.perByte) (j : Nat) :
    (row.flatMap (unpackByte d o))[j * d.perByte + s]? =
      row[j]?.map fun byte => slotValue d o byte s := by
  have hlen : ∀ byte ∈ row, (unpackByte d o byte).length = d.perByte :=
    fun byte _ => length_unpackByte d o byte
  rw [getElem?_flatMap_of_length hlen hs]
  cases row[j]? with
  | none => rfl
  | some byte => simp [getElem?_unpackByte byte hs]

theorem getElem?_unpackRow {width : Nat} (row : List UInt8) (hx : x < width) :
    (unpackRow d o width row)[x]? =
      row[x / d.perByte]?.map fun byte => slotValue d o byte (x % d.perByte) := by
  have hmod := Nat.mod_lt x d.perByte_pos
  have hplace : x / d.perByte * d.perByte + x % d.perByte = x := Nat.div_add_mod' x d.perByte
  rw [unpackRow, List.getElem?_take_of_lt hx, ← getElem?_flatMap_unpackByte row hmod, hplace]

/-- Unpacking finds the pixel of a column in the byte that looking it up goes to. -/
theorem getElem?_unpack (hm : m.Sized) (hx : x < m.width) (hy : y < m.height) :
    m.unpack[y * m.width + x]? = m.data[y * m.stride + x / m.depth.perByte]?.map fun byte =>
      slotValue m.depth m.order byte (x % m.depth.perByte) := by
  have hbyte : x / m.depth.perByte < m.stride := m.depth.div_perByte_lt_stride hx
  have hstride : 0 < m.stride := Nat.lt_of_le_of_lt (Nat.zero_le _) hbyte
  have hdata : m.data.length = m.stride * m.height := hm
  have hrows : ∀ row ∈ (groups m.stride m.data).take m.height,
      (unpackRow m.depth m.order m.width row).length = m.width := fun row hrow =>
    length_unpackRow _ _ _ _ (length_of_mem_groups hstride hdata row (List.mem_of_mem_take hrow))
  rw [unpack, getElem?_flatMap_of_length hrows hx, List.getElem?_take_of_lt hy,
    getElem?_eq_bind_groups hdata hbyte]
  cases (groups m.stride m.data)[y]? with
  | none => rfl
  | some row => exact getElem?_unpackRow row hx

theorem at?_eq_getElem?_unpack (hm : m.Sized) (hx : x < m.width) (hy : y < m.height) :
    m.at? x y = m.unpack[y * m.width + x]? := by
  rw [at?, if_pos ⟨hx, hy⟩, getElem?_unpack hm hx hy]

theorem lt_capacity_of_mem_unpack {v : UInt8} (hv : v ∈ m.unpack) :
    v.toNat < m.depth.capacity := by
  obtain ⟨row, -, hrow⟩ := List.mem_flatMap.1 hv
  obtain ⟨byte, -, hbyte⟩ := List.mem_flatMap.1 (List.mem_of_mem_take hrow)
  obtain ⟨s, hs, rfl⟩ := List.mem_map.1 hbyte
  exact slotValue_lt byte (List.mem_range.1 hs)

/-! ## Bits that no pixel has -/

theorem taken_of_lt {width j s i : Nat} (hs : s < d.perByte) (hi : i < d.bits)
    (hlt : j * d.perByte + s < width) : Taken d o width j (o.shift d s + i) := by
  have hdiv : (j * d.perByte + s) / d.perByte = j := by
    rw [Nat.mul_comm, Nat.mul_add_div d.perByte_pos, Nat.div_eq_of_lt hs, Nat.add_zero]
  have hmod : (j * d.perByte + s) % d.perByte = s := by
    rw [Nat.mul_comm, Nat.mul_add_mod, Nat.mod_eq_of_lt hs]
  refine ⟨j * d.perByte + s, hlt, ?_, i, hi, ?_⟩
  · rw [d.mul_bits_div, hdiv]
  · rw [o.offset_eq_shift, hmod]

/-- The slots of a packed row that lie beyond its pixels hold zero. -/
theorem slotValue_packRow_of_le {row : List UInt8} (hrow : ∀ v ∈ row, v.toNat < d.capacity)
    {j s : Nat} {byte : UInt8} (hbyte : (packRow d o row)[j]? = some byte) (hs : s < d.perByte)
    (hle : row.length ≤ j * d.perByte + s) : slotValue d o byte s = 0 := by
  obtain ⟨k, hk⟩ := exists_unpack_packRow (o := o) row hrow
  have hslot := getElem?_flatMap_unpackByte (o := o) (packRow d o row) hs j
  rw [hk, hbyte, List.getElem?_append_right hle] at hslot
  have hmem : slotValue d o byte s ∈ List.replicate k (0 : UInt8) := List.mem_of_getElem? hslot
  exact (List.mem_replicate.1 hmem).2

theorem stride_le {n width : Nat} (h : n ≤ width) : d.stride n ≤ d.stride width :=
  Nat.div_le_div_right (Nat.add_le_add_right h _)

/-- What is packed here is clean, however many rows come of it. -/
theorem clean_packRows {width height : Nat} {indices : List UInt8}
    (hlt : ∀ i ∈ indices, i.toNat < d.capacity) :
    Clean ⟨width, height, d, o, packRows d o width indices⟩ := by
  intro y _ j hj k hk hfree byte hbyte
  have hwidth : 0 < width := by
    rcases Nat.eq_zero_or_pos width with hzero | hpos
    · have hnone : d.stride width = 0 := by
        rw [hzero, d.stride_eq, Nat.zero_mul]
      exact absurd (hnone ▸ hj) (Nat.not_lt_zero j)
    · exact hpos
  -- The byte belongs to a packed row, which is no longer than the width.
  obtain ⟨row, hmem, hrow, hin⟩ := exists_group_of_getElem?_flatMap hwidth
    (fun g hg => (length_packRow d o g).trans (congrArg d.stride hg))
    (fun g hg => (length_packRow d o g).trans_le (stride_le hg)) hj hbyte
  have hfit : ∀ v ∈ row, v.toNat < d.capacity := by
    intro v hv
    apply hlt
    rw [← flatten_groups width indices]
    exact List.mem_flatten.2 ⟨row, hmem, hv⟩
  -- The bit is one of a slot, and that slot lies beyond the row.
  obtain ⟨s, hs, i, hi, rfl⟩ := o.exists_slot d hk
  have hle : row.length ≤ j * d.perByte + s :=
    Nat.le_trans hrow (Nat.not_lt.1 fun hcolumn => hfree (taken_of_lt hs hi hcolumn))
  have hzero := slotValue_packRow_of_le hfit hin hs hle
  have hbit := testBit_slotValue (o := o) byte hs i
  rw [hzero] at hbit
  simpa [hi] using hbit.symm

/-! ## Bitmaps of one size and form -/

/-- The same size and form with other bytes. -/
def withData (m : PackedBitmap) (data : List UInt8) : PackedBitmap := { m with data := data }

variable {data : List UInt8}

theorem exists_place (hm : m.Sized) {n : Nat} (hn : n < m.data.length) :
    ∃ y < m.height, ∃ j < m.stride, n = y * m.stride + j := by
  have hlen : m.data.length = m.stride * m.height := hm
  have hpos : 0 < m.stride := by
    rcases Nat.eq_zero_or_pos m.stride with hzero | hpos
    · rw [hlen, hzero, Nat.zero_mul] at hn
      exact absurd hn (Nat.not_lt_zero n)
    · exact hpos
  refine ⟨n / m.stride, ?_, n % m.stride, Nat.mod_lt n hpos, (Nat.div_add_mod' n m.stride).symm⟩
  exact Nat.div_lt_of_lt_mul (hlen ▸ hn)

/-- Bytes of the same pixels agree in all bits that a pixel has. -/
theorem testBit_eq_of_taken (hm : m.Sized) (hn : (m.withData data).Sized)
    (hunpack : (m.withData data).unpack = m.unpack) (hy : y < m.height) {j k : Nat}
    {byte byte' : UInt8}
    (hbyte : m.data[y * m.stride + j]? = some byte)
    (hbyte' : data[y * m.stride + j]? = some byte') (htaken : Taken m.depth m.order m.width j k) :
    byte'.toNat.testBit k = byte.toNat.testBit k := by
  obtain ⟨x, hx, rfl, i, hi, rfl⟩ := htaken
  have hs := Nat.mod_lt x m.depth.perByte_pos
  rw [m.depth.mul_bits_div] at hbyte hbyte'
  have hpixel : m.unpack[y * m.width + x]? =
      some (slotValue m.depth m.order byte (x % m.depth.perByte)) := by
    rw [getElem?_unpack hm hx hy, hbyte, Option.map_some]
  have hpixel' : (m.withData data).unpack[y * m.width + x]? =
      some (slotValue m.depth m.order byte' (x % m.depth.perByte)) :=
    (getElem?_unpack hn hx hy).trans
      (congrArg (Option.map fun v => slotValue m.depth m.order v (x % m.depth.perByte)) hbyte')
  have hslot : slotValue m.depth m.order byte' (x % m.depth.perByte) =
      slotValue m.depth m.order byte (x % m.depth.perByte) :=
    Option.some.inj (hpixel'.symm.trans ((congrArg (·[_]?) hunpack).trans hpixel))
  have hbit := testBit_slotValue (o := m.order) byte hs i
  have hbit' := testBit_slotValue (o := m.order) byte' hs i
  rw [hslot, hbit] at hbit'
  rw [m.order.offset_eq_shift]
  simpa [hi] using hbit'.symm

/-- A clean bitmap is determined by its size, its form and its pixels. -/
theorem Clean.data_eq (hm : m.Clean) (hn : (m.withData data).Clean) (hsized : m.Sized)
    (hsized' : (m.withData data).Sized) (hunpack : (m.withData data).unpack = m.unpack) :
    data = m.data := by
  refine List.ext_getElem (hsized'.trans hsized.symm) fun p hp' hp => ?_
  obtain ⟨y, hy, j, hj, rfl⟩ := exists_place hsized hp
  have hbyte := List.getElem?_eq_getElem hp
  have hbyte' := List.getElem?_eq_getElem hp'
  apply UInt8.toNat_inj.1
  apply Nat.eq_of_testBit_eq
  intro k
  by_cases hk : k < 8
  · by_cases htaken : Taken m.depth m.order m.width j k
    · exact testBit_eq_of_taken hsized hsized' hunpack hy hbyte hbyte' htaken
    · rw [hm y hy j hj k hk htaken _ hbyte]
      exact hn y hy j hj k hk htaken _ hbyte'
  · -- A byte has no more than eight bits.
    have hbig : ∀ byte : UInt8, byte.toNat.testBit k = false := fun byte =>
      Nat.testBit_lt_two_pow (Nat.lt_of_lt_of_le byte.toNat_lt
        (Nat.pow_le_pow_right Nat.two_pos (Nat.not_lt.1 hk)))
    rw [hbig, hbig]

/-! ## Packing bit by bit -/

variable {width height : Nat} {indices : List UInt8}

theorem pack_eq_error_of_index {before after : List UInt8} {i : UInt8}
    (hsplit : indices = before ++ i :: after) (hlen : indices.length = width * height)
    (hbefore : ∀ j ∈ before, j.toNat < d.capacity) (hi : d.capacity ≤ i.toNat) :
    pack indices width height d o = .error (.indexOutOfRange i d.capacity) := by
  have hfind : indices.find? (fun j => decide (d.capacity ≤ j.toNat)) = some i := by
    rw [hsplit, List.find?_append, find?_eq_none_iff_lt.2 hbefore, Option.none_or,
      List.find?_cons_of_pos (by simpa using hi)]
  rw [pack, if_pos (congrArg wordSize hlen)]
  split
  · next j hj =>
    rw [hfind] at hj
    cases hj
    rfl
  · next hnone =>
    rw [hfind] at hnone
    cases hnone

/-- Only indices that fit are packed, and their number is right as far as a word can tell. -/
theorem exists_of_pack (h : pack indices width height d o = .ok m) :
    wordSize indices.length = wordSize (width * height) ∧
      (∀ i ∈ indices, i.toNat < d.capacity) ∧
      m = ⟨width, height, d, o, packRows d o width indices⟩ := by
  rw [pack] at h
  split at h
  · next hlen =>
    split at h
    · cases h
    · next hnone =>
      cases h
      exact ⟨hlen, find?_eq_none_iff_lt.1 hnone, rfl⟩
  · cases h

theorem unpack_of_pack (hlen : indices.length = width * height)
    (h : pack indices width height d o = .ok m) : m.unpack = indices := by
  obtain ⟨-, hlt, rfl⟩ := exists_of_pack h
  exact unpack_packRows hlen hlt

theorem clean_of_pack (h : pack indices width height d o = .ok m) : m.Clean := by
  obtain ⟨-, hlt, rfl⟩ := exists_of_pack h
  exact clean_packRows hlt

/-- The pixels of a bitmap can be packed again, and its bytes come back if and only if they were
clean. -/
theorem exists_pack_unpack (hsized : m.Sized) :
    ∃ n, pack m.unpack m.width m.height m.depth m.order = .ok n ∧ (n.data = m.data ↔ m.Clean) := by
  have hlen := length_unpack hsized
  have hlt : ∀ v ∈ m.unpack, v.toNat < m.depth.capacity := fun v => lt_capacity_of_mem_unpack
  have hclean : Clean ⟨m.width, m.height, m.depth, m.order, _⟩ := clean_packRows hlt
  refine ⟨_, pack_eq_ok hlen hlt, ?_, ?_⟩
  · intro hdata
    simp only at hdata
    simpa only [hdata] using hclean
  · intro hm
    exact hm.data_eq hclean hsized (sized_packRows hlen) (unpack_packRows hlen hlt)

theorem ofBytes_eq_ok {data : List UInt8} (hlen : data.length = d.stride width * height) :
    ofBytes data width height d o = .ok ⟨width, height, d, o, data⟩ := by
  rw [ofBytes, ofBytesWith, if_pos (congrArg wordSize hlen)]

end PackedBitmap

end PaletteBitmap

import PaletteBitmap.Proofs.BitLayout
import PaletteBitmap.Proofs.Failures

/-!
# Choices of layout

The order of the pixels, the form of the palette entries, the cutoff and the padding are choices
about the files and not about the picture.  Two encoders that differ in nothing else refuse the
same images for the same reason, and otherwise draw the same picture (`Encoder.SameDrawing`).

How the bytes of two orders are related is said without any packing: the bits of a pixel are a
digit of the byte (`BitDepth.digits`), and the other order has the same digits the other way round
(`BitDepth.mirrored`).  Slots that the last byte of a row leaves free are digits as well, zeros on
either side, so rows of any width are covered.
-/

namespace PaletteBitmap

/-! ## Bytes as digits -/

/-- A digit is found again in the number that the digits spell. -/
theorem ofDigits_div_pow_mod {base s : Nat} {digits : List Nat}
    (hlt : ∀ n ∈ digits, n < base) (hs : s < digits.length) :
    Nat.ofDigits base digits / base ^ s % base = digits[s] := by
  have hhead := hlt _ (List.getElem_mem hs)
  have hbase : 0 < base := Nat.lt_of_le_of_lt (Nat.zero_le _) hhead
  rw [Nat.ofDigits_div_pow_eq_ofDigits_drop s hbase digits hlt, List.drop_eq_getElem_cons hs,
    Nat.ofDigits_cons, Nat.add_mul_mod_self_left, Nat.mod_eq_of_lt hhead]

namespace BitDepth

variable (d : BitDepth) (byte : UInt8)

/-- The bits of a byte in groups of the size of a pixel, the lowest group first. -/
def digits : List Nat :=
  (List.range d.perByte).map fun s => byte.toNat / (2 ^ d.bits) ^ s % 2 ^ d.bits

/-- The byte whose groups of bits stand in the opposite order. -/
def mirrored : UInt8 := UInt8.ofNat (Nat.ofDigits (2 ^ d.bits) (d.digits byte).reverse)

@[simp]
theorem length_digits : (d.digits byte).length = d.perByte := by
  simp [digits]

theorem lt_of_mem_digits {n : Nat} (h : n ∈ d.digits byte) : n < 2 ^ d.bits := by
  obtain ⟨s, -, rfl⟩ := List.mem_map.1 h
  exact Nat.mod_lt _ (Nat.two_pow_pos d.bits)

theorem pow_perByte : (2 ^ d.bits) ^ d.perByte = 256 := by
  rw [← Nat.pow_mul, d.bits_mul_perByte]

/-- A list of as many digits as a byte has is the list of digits of a byte. -/
theorem digits_ofDigits {digits : List Nat} (hlen : digits.length = d.perByte)
    (hlt : ∀ n ∈ digits, n < 2 ^ d.bits) :
    d.digits (UInt8.ofNat (Nat.ofDigits (2 ^ d.bits) digits)) = digits := by
  have hbase : 1 < 2 ^ d.bits := Nat.one_lt_two_pow (Nat.ne_of_gt d.bits_pos)
  have hbyte : Nat.ofDigits (2 ^ d.bits) digits < 256 := by
    have hbound := Nat.ofDigits_lt_base_pow_length hbase hlt
    rwa [hlen, d.pow_perByte] at hbound
  apply List.ext_getElem (by simpa using hlen.symm)
  intro s _ hs
  simp only [BitDepth.digits, List.getElem_map, List.getElem_range]
  rw [UInt8.toNat_ofNat', Nat.mod_eq_of_lt hbyte, ofDigits_div_pow_mod hlt hs]

/-- A byte is the number that its digits spell. -/
theorem ofDigits_digits : Nat.ofDigits (2 ^ d.bits) (d.digits byte) = byte.toNat := by
  have hlt := byte.toNat_lt
  cases d <;> simp [digits, perByte, bits, List.range_succ, Nat.ofDigits_cons] <;> omega

theorem eq_of_digits_eq {a b : UInt8} (h : d.digits a = d.digits b) : a = b := by
  apply UInt8.toNat_inj.1
  rw [← d.ofDigits_digits a, h, d.ofDigits_digits b]

@[simp]
theorem digits_mirrored : d.digits (d.mirrored byte) = (d.digits byte).reverse := by
  refine d.digits_ofDigits (by simp) ?_
  intro n hn
  exact d.lt_of_mem_digits byte (List.mem_reverse.1 hn)

end BitDepth

namespace PackedBitmap

variable {d : BitDepth} {o o' : PixelOrder}

/-! ## Bytes in two orders -/

theorem map_toNat_unpackByte_lowFirst (byte : UInt8) :
    (unpackByte d .lowFirst byte).map UInt8.toNat = d.digits byte := by
  rw [unpackByte, List.map_map, BitDepth.digits]
  apply List.map_congr_left
  intro s hs
  rw [Function.comp_apply, toNat_slotValue byte (List.mem_range.1 hs), Nat.shiftRight_eq_div_pow,
    PixelOrder.shift, Nat.mul_comm, Nat.pow_mul]

theorem map_toNat_unpackByte_highFirst (byte : UInt8) :
    (unpackByte d .highFirst byte).map UInt8.toNat = (d.digits byte).reverse := by
  rw [← map_toNat_unpackByte_lowFirst, ← List.map_reverse]
  congr 1
  apply List.ext_getElem (by simp)
  intro s hs _
  rw [length_unpackByte] at hs
  have hshift : PixelOrder.shift .highFirst d s = PixelOrder.shift .lowFirst d (d.perByte - 1 - s) := by
    cases d <;> simp only [PixelOrder.shift, BitDepth.perByte, BitDepth.bits] at hs ⊢ <;> omega
  simp [unpackByte, slotValue, hshift]

theorem eq_of_unpackByte_eq {a b : UInt8} (h : unpackByte d o a = unpackByte d o b) : a = b := by
  have hdigits := congrArg (List.map UInt8.toNat) h
  apply d.eq_of_digits_eq
  cases o with
  | lowFirst => simpa only [map_toNat_unpackByte_lowFirst] using hdigits
  | highFirst => simpa only [map_toNat_unpackByte_highFirst, List.reverse_inj] using hdigits

/-- Mirrored, a byte shows the same pixels in the other order. -/
theorem unpackByte_mirrored (hne : o' ≠ o) (byte : UInt8) :
    unpackByte d o' (d.mirrored byte) = unpackByte d o byte := by
  apply List.map_injective_iff.2 fun _ _ => UInt8.toNat_inj.1
  cases o <;> cases o' <;>
    simp [map_toNat_unpackByte_lowFirst, map_toNat_unpackByte_highFirst] at hne ⊢

theorem packByte_eq_mirrored (hne : o' ≠ o) (xs : List UInt8) (hfit : xs.length ≤ d.perByte)
    (hxs : ∀ x ∈ xs, x.toNat < d.capacity) :
    packByte d o' 0 xs = d.mirrored (packByte d o 0 xs) := by
  -- The bytes are compared by the pixels that they show in the second order.
  apply eq_of_unpackByte_eq (d := d) (o := o')
  rw [unpackByte_mirrored hne, unpackByte_packByte xs hfit hxs, unpackByte_packByte xs hfit hxs]

/-! ## Rows in two orders -/

theorem mem_of_mem_groups {α : Type} {n : Nat} {xs g : List α} {x : α} (hg : g ∈ groups n xs)
    (hx : x ∈ g) : x ∈ xs := by
  rw [← flatten_groups n xs]
  exact List.mem_flatten.2 ⟨g, hg, hx⟩

theorem length_le_of_mem_groups {α : Type} {n : Nat} (hn : 0 < n) {xs g : List α}
    (hg : g ∈ groups n xs) : g.length ≤ n := by
  induction xs using groups.induct n with
  | case1 => simp [groups] at hg
  | case2 x xs ih =>
      rw [groups, List.mem_cons] at hg
      rcases hg with rfl | hrest
      · rw [List.length_cons, List.length_take]
        omega
      · exact ih hrest

theorem packRow_eq_map_mirrored (hne : o' ≠ o) {row : List UInt8}
    (hrow : ∀ x ∈ row, x.toNat < d.capacity) :
    packRow d o' row = (packRow d o row).map d.mirrored := by
  rw [packRow, packRow, List.map_map]
  apply List.map_congr_left
  intro g hg
  exact packByte_eq_mirrored hne g (length_le_of_mem_groups d.perByte_pos hg) fun x hx =>
    hrow x (mem_of_mem_groups hg hx)

/-- Packed in the other order, an image has the mirrored bytes. -/
theorem packRows_eq_map_mirrored (hne : o' ≠ o) (width : Nat) {indices : List UInt8}
    (hlt : ∀ i ∈ indices, i.toNat < d.capacity) :
    packRows d o' width indices = (packRows d o width indices).map d.mirrored := by
  rw [packRows, packRows, List.map_flatMap, List.flatMap_def, List.flatMap_def]
  congr 1
  apply List.map_congr_left
  intro row hrow
  exact packRow_eq_map_mirrored hne fun x hx => hlt x (mem_of_mem_groups hrow hx)

end PackedBitmap

/-! ## Palette files -/

namespace Palette

/-- A palette that is filled up begins as it does otherwise, and goes on with zeros. -/
theorem toBytes_padTo {p : Palette} {f : PaletteFormat} {n : Nat}
    (h : max n p.size * f.entrySize < 2 ^ 64) (cutoff : UInt8) :
    p.toBytes ⟨f, cutoff, some n⟩ =
      p.toBytes ⟨f, cutoff, none⟩ ++ List.replicate ((n - p.size) * f.entrySize) 0 := by
  have hcount : max n p.size - p.size = n - p.size := by omega
  have hle : max 0 p.size * f.entrySize ≤ max n p.size * f.entrySize :=
    Nat.mul_le_mul_right _ (max_le_max_right _ (Nat.zero_le n))
  rw [toBytes_eq (l := ⟨f, cutoff, some n⟩) h,
    toBytes_eq (l := ⟨f, cutoff, none⟩) (Nat.lt_of_le_of_lt hle h)]
  simp [PaletteLayout.entryCount, hcount]

end Palette

/-! ## Main statement -/

namespace Encoder

/-- Two encodings show the same picture: the same palette and the same pixels.  Their bytes
differ as far as the layouts do. -/
structure SameDrawing (e e' : Encoder) (assets assets' : EncodedImage) : Prop where
  palette_eq : assets'.palette = assets.palette
  width_eq : assets'.bitmap.width = assets.bitmap.width
  height_eq : assets'.bitmap.height = assets.bitmap.height
  depth_eq : assets'.bitmap.depth = assets.bitmap.depth
  unpack_eq : assets'.bitmap.unpack = assets.bitmap.unpack
  data_eq : e'.order = e.order → assets'.bitmap.data = assets.bitmap.data
  data_mirrored : e'.order ≠ e.order →
    assets'.bitmap.data = assets.bitmap.data.map e.depth.mirrored
  paletteBytes_eq : e'.format = e.format → e'.cutoff = e.cutoff → e'.pad = e.pad →
    assets'.paletteBytes = assets.paletteBytes
  /-- The longer of two palette files has an entry for everything that the depth can tell apart. -/
  paletteBytes_padded : e'.format = e.format → e'.cutoff = e.cutoff → e.pad = false →
    e'.pad = true →
    assets'.paletteBytes = assets.paletteBytes ++
        List.replicate ((2 ^ e.depth.bits - assets.palette.size) * e.format.entrySize) 0 ∧
      assets'.paletteBytes.length = 2 ^ e.depth.bits * e.format.entrySize

variable {e e' : Encoder} {image : Raster} {q : Quantized}

theorem layout_of_pad (h : e.pad = true) :
    e.layout = ⟨e.format, e.cutoff, some e.depth.capacity⟩ := by
  rw [layout, if_pos h]

theorem layout_of_not_pad (h : e.pad = false) : e.layout = ⟨e.format, e.cutoff, none⟩ := by
  rw [layout, h, if_neg Bool.false_ne_true]

/-- What was quantized is drawn the same way by both encoders. -/
theorem exists_sameDrawing (hdepth : e'.depth = e.depth) (hoptions : e'.options = e.options)
    (h : quantize image.pixels e.depth e.options = .ok q) :
    ∃ assets assets', e.encode image = .ok assets ∧ e'.encode image = .ok assets' ∧
      SameDrawing e e' assets assets' := by
  have h' : quantize image.pixels e'.depth e'.options = .ok q := by
    rw [hdepth, hoptions]
    exact h
  have hsize := Quantize.size_le_capacity h
  have hsize' := Quantize.size_le_capacity h'
  refine ⟨_, _, encode_of_quantize h, encode_of_quantize h', ?_⟩
  constructor
  case palette_eq | width_eq | height_eq => rfl
  case depth_eq => exact hdepth
  case unpack_eq =>
    exact (PackedBitmap.unpack_packRows (length_of_quantize h') (lt_capacity_of_quantize h')).trans
      (PackedBitmap.unpack_packRows (length_of_quantize h) (lt_capacity_of_quantize h)).symm
  case data_eq =>
    intro horder
    simp only [hdepth, horder]
  case data_mirrored =>
    intro horder
    simp only [hdepth]
    exact PackedBitmap.packRows_eq_map_mirrored horder _ (lt_capacity_of_quantize h)
  case paletteBytes_eq =>
    intro hformat hcutoff hpad
    simp only [layout, hformat, hcutoff, hpad, hdepth]
  case paletteBytes_padded =>
    intro hformat hcutoff hpad hpad'
    have hlayout : e'.layout = ⟨e.format, e.cutoff, some e.depth.capacity⟩ := by
      rw [layout_of_pad hpad', hformat, hcutoff, hdepth]
    constructor
    · have hfits := e'.fileSize_lt hsize'
      rw [hlayout] at hfits ⊢
      rw [layout_of_not_pad hpad]
      exact Palette.toBytes_padTo hfits _
    · have hcount : e'.layout.entryCount q.palette.size = 2 ^ e.depth.bits := by
        rw [hlayout]
        exact Nat.max_eq_left hsize
      rw [Palette.length_toBytes (e'.fileSize_lt hsize'), hcount, hlayout]

/-- Encoders that differ in the layout only draw the same picture, or fail for the same reason. -/
theorem encode_sameDrawing (e e' : Encoder) (image : Raster) (hdepth : e'.depth = e.depth)
    (hoptions : e'.options = e.options) :
    (∃ cause, e.encode image = .error cause ∧ e'.encode image = .error cause) ∨
      ∃ assets assets', e.encode image = .ok assets ∧ e'.encode image = .ok assets' ∧
        SameDrawing e e' assets assets' := by
  cases h : quantize image.pixels e.depth e.options with
  | error cause =>
      have hrefused : Quantize.Refuses image.pixels e.depth e.options cause :=
        Quantize.quantizeWith_eq_error_iff.1 h
      refine .inl ⟨cause, encode_eq_error_iff.2 hrefused, encode_eq_error_iff.2 ?_⟩
      rwa [hdepth, hoptions]
  | ok q => exact .inr (exists_sameDrawing hdepth hoptions h)

/-- A bit for each pixel as in `wordEncoder`, in the other order and without padding. -/
def plainEncoder : Encoder := ⟨.one, { count := 0 }, .lowFirst, .psx16, 128, false⟩

theorem stripes_mirrored : wordEncoder.depth = plainEncoder.depth ∧
    wordEncoder.options = plainEncoder.options ∧
    ∃ assets assets', plainEncoder.encode stripes = .ok assets ∧
      wordEncoder.encode stripes = .ok assets' ∧ assets.bitmap.data = [0b00000010] ∧
      assets'.bitmap.data = [0b01000000] ∧ assets'.paletteBytes = assets.paletteBytes := by
  obtain ⟨q, hq, hdraws⟩ := exists_quantize_self plainEncoder stripes (by decide) (by decide)
  have hencode := encode_of_quantize hq
  have hindices : q.indices = [0, 1, 0] := by
    rw [hdraws.indices]
    decide
  have hbytes : PackedBitmap.packRows .one .lowFirst 3 q.indices = [0b00000010] := by
    rw [hindices]
    decide +kernel
  have hmirrored : [0b00000010].map BitDepth.one.mirrored = [0b01000000] := by
    decide +kernel
  rcases encode_sameDrawing plainEncoder wordEncoder stripes rfl rfl with
    ⟨cause, hcause, -⟩ | ⟨assets, assets', h, h', hsame⟩
  · rw [hencode] at hcause
    cases hcause
  · rw [hencode] at h
    cases h
    refine ⟨rfl, rfl, _, assets', hencode, h', hbytes, ?_, ?_⟩
    · rw [hsame.data_mirrored (by decide), ← hmirrored, ← hbytes]
      rfl
    · -- Two colors take up all that a bit can tell apart, so there is nothing to fill up.
      have hsize : q.palette.size = 2 := by
        rw [Palette.size, hdraws.entries]
        decide
      have hpadded := (hsame.paletteBytes_padded rfl rfl rfl rfl).1
      simpa [hsize, plainEncoder, BitDepth.bits] using hpadded

end Encoder

end PaletteBitmap

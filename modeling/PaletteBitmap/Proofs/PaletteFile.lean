import PaletteBitmap.Palette.Layout

/-!
# Reading palette files back

What `PaletteFormat.decode` makes of the bytes that `Palette.toBytes` writes.  Entry by entry
a color comes back as `PaletteFormat.shown` says: unchanged in the `rgba8888` form, and in the
`psx16` form either transparent or with the five upper bits of each channel, repeated below.
The padding comes back as transparent black, since zero bytes are that in both forms.

This is so where the length of the file has room in a word (`PaletteLayout.fileSize`).
-/

namespace PaletteBitmap

namespace PaletteFormat

/-- The five upper bits of a channel, with the uppermost of them again in the free places. -/
def upperBits (v : UInt8) : UInt8 := (v &&& (0xF8 : UInt8)) ||| (v >>> 5)

/-- What a color looks like after it went through a palette file. -/
def shown (f : PaletteFormat) (cutoff : UInt8) (c : Rgba) : Rgba :=
  match f with
  | rgba8888 => c
  | psx16 =>
    if c.a < cutoff then Rgba.transparent
    else Rgba.solid (upperBits c.r) (upperBits c.g) (upperBits c.b)

/-! ## Words

The fifteen bits of a word are three numbers below 32, written in base 32. -/

def packedWord (r g b : UInt8) : UInt16 :=
  (r >>> 3).toUInt16 ||| ((g >>> 3).toUInt16 <<< 5) ||| ((b >>> 3).toUInt16 <<< 10)

theorem toNat_packedWord (r g b : UInt8) : (packedWord r g b).toNat =
    b.toNat / 8 * 1024 + g.toNat / 8 * 32 + r.toNat / 8 := by
  have hr : (r >>> 3).toUInt16.toNat = r.toNat / 8 := by
    simp [Nat.shiftRight_eq_div_pow]
  have hg : ((g >>> 3).toUInt16 <<< 5).toNat = (g.toNat / 8) <<< 5 := by
    have hlt := g.toNat_lt
    simp [Nat.shiftRight_eq_div_pow, Nat.shiftLeft_eq]
    omega
  have hb : ((b >>> 3).toUInt16 <<< 10).toNat = (b.toNat / 8) <<< 10 := by
    have hlt := b.toNat_lt
    simp [Nat.shiftRight_eq_div_pow, Nat.shiftLeft_eq]
    omega
  -- Each part lies below the next one, so putting bits together is adding.
  have hlow : r.toNat / 8 < 2 ^ 5 := by
    have hlt := r.toNat_lt
    omega
  have hmiddle : (g.toNat / 8) <<< 5 + r.toNat / 8 < 2 ^ 10 := by
    have hlt := g.toNat_lt
    rw [Nat.shiftLeft_eq]
    omega
  rw [packedWord, UInt16.toNat_or, UInt16.toNat_or, hr, hg, hb, Nat.or_comm (r.toNat / 8),
    ← Nat.shiftLeft_add_eq_or_of_lt hlow, Nat.or_comm, ← Nat.shiftLeft_add_eq_or_of_lt hmiddle]
  simp only [Nat.shiftLeft_eq]
  omega

theorem toNat_lowest (w : UInt16) : (w &&& 0x1F).toUInt8.toNat = w.toNat % 32 := by
  have hand : w.toNat &&& 31 = w.toNat % 32 := Nat.and_two_pow_sub_one_eq_mod w.toNat 5
  have hmask : (0x1F : UInt16).toNat = 31 := rfl
  rw [UInt16.toNat_toUInt8, UInt16.toNat_and, hmask, hand]
  omega

/-- Widening looks at the lowest five bits, and makes the upper bits of a channel of them. -/
theorem widen_eq_upperBits {w : UInt16} {v : UInt8} (h : w.toNat % 32 = v.toNat / 8) :
    widen w = upperBits v := by
  have hfive : (w &&& 0x1F).toUInt8 = v >>> 3 := by
    apply UInt8.toNat_inj.1
    rw [toNat_lowest, h]
    simp [Nat.shiftRight_eq_div_pow]
  -- What is left is a fact about the 256 channel values.
  have hall : ∀ n : Fin 256, ((UInt8.ofFin n >>> 3) <<< 3) ||| ((UInt8.ofFin n >>> 3) >>> 2) =
      upperBits (UInt8.ofFin n) := by
    decide +kernel
  have hv := hall v.toFin
  simp only [widen, hfive]
  exact hv

theorem psxColor_packedWord {r g b : UInt8} (h : packedWord r g b ≠ 0) :
    psxColor (packedWord r g b) = Rgba.solid (upperBits r) (upperBits g) (upperBits b) := by
  have hword := toNat_packedWord r g b
  have hr := r.toNat_lt
  have hg := g.toNat_lt
  have hb := b.toNat_lt
  have hmiddle : (packedWord r g b >>> 5).toNat = (packedWord r g b).toNat / 32 := by
    simp [Nat.shiftRight_eq_div_pow]
  have hhigh : (packedWord r g b >>> 10).toNat = (packedWord r g b).toNat / 1024 := by
    simp [Nat.shiftRight_eq_div_pow]
  rw [psxColor, if_neg h, widen_eq_upperBits (v := r) (by omega),
    widen_eq_upperBits (v := g) (by omega), widen_eq_upperBits (v := b) (by omega)]

theorem psxColor_psxWord (c : Rgba) (cutoff : UInt8) :
    psxColor (psxWord c cutoff) = psx16.shown cutoff c := by
  rw [psxWord, shown]
  split
  · rfl
  · change psxColor (if packedWord c.r c.g c.b = 0 then 0x8000 else packedWord c.r c.g c.b) = _
    split
    · next hzero =>
      -- No bit is left of the channels, and the word in place of zero is opaque black.
      have hnat := toNat_packedWord c.r c.g c.b
      rw [hzero] at hnat
      have hbits : ∀ v : UInt8, v.toNat / 8 = 0 → upperBits v = 0 := by
        intro v hv
        rw [← widen_eq_upperBits (w := 0) (v := v) (by rw [hv]; rfl)]
        rfl
      have hlit : (0 : UInt16).toNat = 0 := rfl
      rw [hbits c.r (by omega), hbits c.g (by omega), hbits c.b (by omega)]
      rfl
    · next hword => exact psxColor_packedWord hword

/-- Two bytes, the low one first, make their word. -/
theorem word_of_bytes (w : UInt16) :
    w.toUInt8.toUInt16 ||| ((w >>> 8).toUInt8.toUInt16 <<< 8) = w := by
  have hlt := w.toNat_lt
  have hlow : w.toUInt8.toUInt16.toNat = w.toNat % 256 := by simp
  have hhigh : ((w >>> 8).toUInt8.toUInt16 <<< 8).toNat = (w.toNat / 256) <<< 8 := by
    simp [Nat.shiftRight_eq_div_pow, Nat.shiftLeft_eq]
    omega
  have hbyte : w.toNat % 256 < 2 ^ 8 := Nat.mod_lt _ (by decide)
  apply UInt16.toNat_inj.1
  rw [UInt16.toNat_or, hlow, hhigh, Nat.or_comm, ← Nat.shiftLeft_add_eq_or_of_lt hbyte,
    Nat.shiftLeft_eq]
  omega

/-! ## Entries -/

/-- The entries in some bytes, whatever is left over at the end. -/
def readEntries (f : PaletteFormat) (bytes : List UInt8) : List Rgba :=
  match f with
  | rgba8888 => Rgba.listOfBytes bytes
  | psx16 => psxColors bytes

variable (f : PaletteFormat) (cutoff : UInt8)

theorem decode_eq_readEntries {bytes : List UInt8} (h : bytes.length % f.entrySize = 0) :
    f.decode bytes = .ok (f.readEntries bytes) := by
  have hwhole : ¬ bytes.length % f.entrySize ≠ 0 := not_not_intro h
  cases f with
  | rgba8888 => simp only [decode, if_neg hwhole, readEntries]
  | psx16 => simp only [decode, if_neg hwhole, readEntries]

theorem readEntries_encodeEntry_append (c : Rgba) (rest : List UInt8) :
    f.readEntries (f.encodeEntry cutoff c ++ rest) = f.shown cutoff c :: f.readEntries rest := by
  cases f with
  | rgba8888 => rfl
  | psx16 =>
      have hword := word_of_bytes (psxWord c cutoff)
      simp only [readEntries, encodeEntry, List.cons_append, List.nil_append, psxColors, hword,
        psxColor_psxWord]

theorem readEntries_flatMap_append (colors : List Rgba) (rest : List UInt8) :
    f.readEntries (colors.flatMap (f.encodeEntry cutoff) ++ rest) =
      colors.map (f.shown cutoff) ++ f.readEntries rest := by
  induction colors with
  | nil => rfl
  | cons c colors ih =>
      rw [List.flatMap_cons, List.append_assoc, readEntries_encodeEntry_append, ih]
      rfl

theorem readEntries_zeros (n : Nat) :
    f.readEntries (List.replicate (n * f.entrySize) 0) = List.replicate n Rgba.transparent := by
  induction n with
  | zero => cases f <;> simp [readEntries, Rgba.listOfBytes, psxColors]
  | succ n ih =>
      cases f with
      | rgba8888 =>
          have hzeros : List.replicate ((n + 1) * entrySize rgba8888) (0 : UInt8) =
              0 :: 0 :: 0 :: 0 :: List.replicate (n * entrySize rgba8888) 0 := by
            rw [Nat.succ_mul]
            rfl
          rw [hzeros, List.replicate_succ, ← ih]
          rfl
      | psx16 =>
          have hzeros : List.replicate ((n + 1) * entrySize psx16) (0 : UInt8) =
              0 :: 0 :: List.replicate (n * entrySize psx16) 0 := by
            rw [Nat.succ_mul]
            rfl
          rw [hzeros, List.replicate_succ, ← ih]
          rfl

theorem length_flatMap_encodeEntry (colors : List Rgba) :
    (colors.flatMap (f.encodeEntry cutoff)).length = colors.length * f.entrySize := by
  induction colors with
  | nil => simp
  | cons c colors ih =>
      rw [List.flatMap_cons, List.length_append, length_encodeEntry, ih, List.length_cons,
        Nat.succ_mul, Nat.add_comm]

end PaletteFormat

/-! ## Files -/

namespace Palette

open PaletteFormat

variable {p : Palette} {l : PaletteLayout}

/-- Where nothing is cut, a palette file is the entries and then zeros. -/
theorem toBytes_eq (h : l.fileSize p.size < UInt64.size) : p.toBytes l =
    p.entries.flatMap (l.format.encodeEntry l.cutoff) ++
      List.replicate ((l.entryCount p.size - p.size) * l.format.entrySize) 0 := by
  have hle : p.size ≤ l.entryCount p.size := Nat.le_max_right _ _
  have hlength : (p.entries.flatMap (l.format.encodeEntry l.cutoff)).length =
      p.size * l.format.entrySize := length_flatMap_encodeEntry _ _ _
  have hfits : p.size * l.format.entrySize ≤ l.fileSize p.size := Nat.mul_le_mul_right _ hle
  simp only [toBytes, wordSize_of_lt h]
  rw [List.take_of_length_le (hlength ▸ hfits), List.rightpad, hlength,
    PaletteLayout.fileSize, ← Nat.sub_mul]

/-- A palette file holds whole entries, as many as its layout asks for. -/
theorem length_toBytes (h : l.fileSize p.size < UInt64.size) :
    (p.toBytes l).length = l.entryCount p.size * l.format.entrySize := by
  have hle : p.size ≤ l.entryCount p.size := Nat.le_max_right _ _
  rw [toBytes_eq h, List.length_append, length_flatMap_encodeEntry, List.length_replicate,
    ← Nat.add_mul]
  congr 1
  rw [Palette.size] at hle ⊢
  omega

/-- A palette file is read as the colors shown, and transparent black for the padding. -/
theorem decode_toBytes (h : l.fileSize p.size < UInt64.size) : l.format.decode (p.toBytes l) =
    .ok (p.entries.map (l.format.shown l.cutoff) ++
      List.replicate (l.entryCount p.size - p.size) Rgba.transparent) := by
  have hwhole : (p.toBytes l).length % l.format.entrySize = 0 := by
    rw [length_toBytes h, Nat.mul_mod_left]
  rw [decode_eq_readEntries _ hwhole, toBytes_eq h, readEntries_flatMap_append, readEntries_zeros]

end Palette

end PaletteBitmap

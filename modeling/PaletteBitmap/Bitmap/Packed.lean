import PaletteBitmap.Bitmap.Depth
import PaletteBitmap.Size

/-!
# Packed bitmaps

The pixels of a packed bitmap are palette positions.  Each row takes a whole number of bytes,
the stride; within a byte the pixels lie as depth and order say, and what a row does not use
of its last byte is zero when the row was packed here.  Bytes taken over from elsewhere are
kept as they are.

How many pixels or bytes there have to be is computed in words (`wordSize`).  Where the sides have a
product that fits a word, just that many are accepted; beyond that fewer are, and a bitmap need not
have the bytes that its sides ask for (`PackedBitmap.Sized`).  A pixel whose byte is missing cannot
be read, although its place is in the image.

Packing works on the groups of pixels that share a byte, unpacking on the bytes of a row, and
`at?` goes straight to the byte of one pixel.
-/

namespace PaletteBitmap

/-! ## Groups of a list -/

/-- Cuts a list into groups of `n`, the last one possibly shorter; zero cuts like one. -/
def groups (n : Nat) : List α → List (List α)
  | [] => []
  | x :: xs => (x :: xs.take (n - 1)) :: groups n (xs.drop (n - 1))
termination_by xs => xs.length
decreasing_by simp only [List.length_drop, List.length_cons]; omega

/-- The number of groups is the length over `n`, rounded up. -/
theorem length_groups {n : Nat} (hn : 0 < n) (xs : List α) :
    (groups n xs).length = (xs.length + (n - 1)) / n := by
  induction xs using groups.induct n with
  | case1 =>
      simp only [groups, List.length_nil, Nat.zero_add]
      exact (Nat.div_eq_of_lt (by omega)).symm
  | case2 x xs ih =>
      rw [groups, List.length_cons, ih, List.length_drop, List.length_cons]
      by_cases h : n - 1 ≤ xs.length
      · have : xs.length + 1 + (n - 1) = xs.length - (n - 1) + (n - 1) + n := by omega
        rw [this, Nat.add_div_right _ hn]
      · have h₁ : xs.length - (n - 1) + (n - 1) = n - 1 := by omega
        rw [h₁, Nat.div_eq_of_lt (by omega)]
        symm
        rw [Nat.zero_add, Nat.div_eq_iff hn]
        omega

theorem flatten_groups (n : Nat) (xs : List α) : (groups n xs).flatten = xs := by
  induction xs using groups.induct n with
  | case1 => simp [groups]
  | case2 x xs ih => rw [groups, List.flatten_cons, ih]; simp

/-! ## Errors -/

inductive PackError where
  | lengthMismatch (expected actual : Nat)
  | indexOutOfRange (index : UInt8) (capacity : Nat)
  | missingPaletteEntry (index : UInt8) (paletteSize : Nat)
  deriving DecidableEq, Repr

def PackError.message : PackError → String
  | .lengthMismatch expected actual =>
    s!"expected {expected} bytes of pixel data, got {actual}"
  | .indexOutOfRange index capacity =>
    s!"palette index {index} does not fit a {capacity}-entry bit depth"
  | .missingPaletteEntry index paletteSize =>
    s!"palette index {index} is past the end of a {paletteSize}-entry palette"

/-! ## Bitmaps -/

/-- A bitmap of packed palette positions. -/
structure PackedBitmap where
  width : Nat
  height : Nat
  depth : BitDepth
  order : PixelOrder
  data : List UInt8
  deriving DecidableEq, Repr

namespace PackedBitmap

def stride (m : PackedBitmap) : Nat := m.depth.stride m.width

/-- There are just the bytes that the rows need. -/
def Sized (m : PackedBitmap) : Prop := m.data.length = m.stride * m.height

instance (m : PackedBitmap) : Decidable m.Sized :=
  inferInstanceAs (Decidable (m.data.length = m.stride * m.height))

/-! ### Packing -/

/-- The byte of a group of pixels, from slot `slot` on. -/
def packByte (d : BitDepth) (o : PixelOrder) (slot : Nat) : List UInt8 → UInt8
  | [] => 0
  | index :: rest =>
    ((index &&& d.mask) <<< UInt8.ofNat (o.shift d slot)) ||| packByte d o (slot + 1) rest

def packRow (d : BitDepth) (o : PixelOrder) (row : List UInt8) : List UInt8 :=
  (groups d.perByte row).map (packByte d o 0)

def packRows (d : BitDepth) (o : PixelOrder) (width : Nat) (indices : List UInt8) :
    List UInt8 :=
  (groups width indices).flatMap (packRow d o)

@[simp]
theorem length_packRow (d : BitDepth) (o : PixelOrder) (row : List UInt8) :
    (packRow d o row).length = d.stride row.length := by
  rw [packRow, List.length_map, length_groups d.perByte_pos, BitDepth.stride]

/-- A full image packs to `stride` bytes a row. -/
theorem length_packRows (d : BitDepth) (o : PixelOrder) (width height : Nat)
    (indices : List UInt8) (h : indices.length = width * height) :
    (packRows d o width indices).length = d.stride width * height := by
  induction height generalizing indices with
  | zero =>
      have : indices = [] := List.eq_nil_of_length_eq_zero (by simpa using h)
      subst this
      simp [packRows, groups]
  | succ height ih =>
      match indices, h with
      | [], h =>
          have hw : width = 0 := by
            simp only [List.length_nil] at h
            rcases Nat.eq_zero_or_pos width with hw | hw
            · exact hw
            · have : 0 < width * (height + 1) := Nat.mul_pos hw (Nat.succ_pos height)
              omega
          subst hw
          simp [packRows, groups, BitDepth.stride, Nat.div_eq_of_lt
            (show d.perByte - 1 < d.perByte from Nat.sub_lt d.perByte_pos Nat.one_pos)]
      | x :: xs, h =>
          have hw : 0 < width := by
            rcases Nat.eq_zero_or_pos width with hw | hw
            · subst hw; simp at h
            · exact hw
          rw [List.length_cons, Nat.mul_succ] at h
          have hle : width - 1 ≤ xs.length := by omega
          have hrest : (xs.drop (width - 1)).length = width * height := by
            rw [List.length_drop]; omega
          have hrow : (x :: xs.take (width - 1)).length = width := by
            rw [List.length_cons, List.length_take]; omega
          have ih' := ih _ hrest
          rw [packRows] at ih' ⊢
          rw [groups, List.flatMap_cons, List.length_append, length_packRow, hrow, ih',
            Nat.mul_succ]
          omega

def pack (indices : List UInt8) (width height : Nat) (d : BitDepth) (o : PixelOrder) :
    Except PackError PackedBitmap :=
  if wordSize indices.length = wordSize (width * height) then
    match indices.find? (fun i => d.capacity ≤ i.toNat) with
    | some i => .error (.indexOutOfRange i d.capacity)
    | none => .ok ⟨width, height, d, o, packRows d o width indices⟩
  else .error (.lengthMismatch (wordSize (width * height)) indices.length)

/-- Takes bytes over if there are as many as the rows need, where `count` says how sizes are
counted. -/
def ofBytesWith (count : Nat → Nat) (data : List UInt8) (width height : Nat) (d : BitDepth)
    (o : PixelOrder) : Except PackError PackedBitmap :=
  if count data.length = count (d.stride width * height) then .ok ⟨width, height, d, o, data⟩
  else .error (.lengthMismatch (count (d.stride width * height)) data.length)

def ofBytes (data : List UInt8) (width height : Nat) (d : BitDepth) (o : PixelOrder) :
    Except PackError PackedBitmap :=
  ofBytesWith wordSize data width height d o

/-! ### Reading -/

/-- The pixel in one slot of a byte. -/
def slotValue (d : BitDepth) (o : PixelOrder) (byte : UInt8) (slot : Nat) : UInt8 :=
  (byte >>> UInt8.ofNat (o.shift d slot)) &&& d.mask

/-- The pixels of a byte from left to right. -/
def unpackByte (d : BitDepth) (o : PixelOrder) (byte : UInt8) : List UInt8 :=
  (List.range d.perByte).map (slotValue d o byte)

/-- The pixels of a row; what its last byte has beyond the width is left out. -/
def unpackRow (d : BitDepth) (o : PixelOrder) (width : Nat) (row : List UInt8) : List UInt8 :=
  (row.flatMap (unpackByte d o)).take width

def unpack (m : PackedBitmap) : List UInt8 :=
  ((groups m.stride m.data).take m.height).flatMap (unpackRow m.depth m.order m.width)

/-- The pixel at a place, if the place is in the image and has a byte. -/
def at? (m : PackedBitmap) (x y : Nat) : Option UInt8 :=
  if x < m.width ∧ y < m.height then
    m.data[y * m.stride + x / m.depth.perByte]?.map fun byte =>
      slotValue m.depth m.order byte (x % m.depth.perByte)
  else none

end PackedBitmap

end PaletteBitmap

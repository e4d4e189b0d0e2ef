import PaletteBitmap.Text.Blank
import PaletteBitmap.Name

/-!
# Depths and orders of packed pixels

A packed pixel takes one, two, four or eight bits, so a byte holds a whole number of pixels
and none crosses from one byte into the next.  Where the leftmost pixel of a byte lies is the
order: in the low bits, or in the high bits.
-/

namespace PaletteBitmap

/-! ## Depths -/

/-- The number of bits of a pixel. -/
inductive BitDepth where
  | one
  | two
  | four
  | eight
  deriving DecidableEq, Repr, Inhabited

namespace BitDepth

def ofBits? : Nat → Option BitDepth
  | 1 => some one
  | 2 => some two
  | 4 => some four
  | 8 => some eight
  | _ => none

def bits : BitDepth → Nat
  | one => 1
  | two => 2
  | four => 4
  | eight => 8

/-- How many palette entries a pixel can tell apart. -/
def capacity (d : BitDepth) : Nat := Nat.pow 2 d.bits

def perByte (d : BitDepth) : Nat := 8 / d.bits

def stride (d : BitDepth) (width : Nat) : Nat := (width + (d.perByte - 1)) / d.perByte

theorem ofBits?_bits (d : BitDepth) : ofBits? d.bits = some d := by
  cases d <;> rfl

theorem perByte_pos (d : BitDepth) : 0 < d.perByte := by
  cases d <;> decide

theorem capacity_le (d : BitDepth) : d.capacity ≤ 256 := by
  cases d <;> decide

/-- The lowest bits of a byte, as many as a pixel has. -/
def mask : BitDepth → UInt8
  | one => 0x01
  | two => 0x03
  | four => 0x0F
  | eight => 0xFF

end BitDepth

/-! ## Orders -/

/-- Where the leftmost pixel of a byte lies. -/
inductive PixelOrder where
  | lowFirst
  | highFirst
  deriving DecidableEq, Repr, Inhabited

namespace PixelOrder

def name : PixelOrder → String
  | lowFirst => "low-first"
  | highFirst => "high-first"

/-- The order of a name in letters of any case. -/
def ofName (s : String) : Except UnknownName PixelOrder :=
  match Text.lowered s with
  | "low-first" | "low" | "lsb" => .ok lowFirst
  | "high-first" | "high" | "msb" => .ok highFirst
  | _ => .error (.pixelOrder s)

/-- How far pixel `slot` of a byte lies from the low end, in bits. -/
def shift (o : PixelOrder) (d : BitDepth) (slot : Nat) : Nat :=
  match o with
  | lowFirst => slot * d.bits
  | highFirst => 8 - d.bits - slot * d.bits

end PixelOrder

end PaletteBitmap

/-!
# Colors

The stored form of a color: four channels of eight bits, red, green, blue and alpha.
Every pixel, histogram entry and palette entry of the library is an `Rgba`.  Reading and
writing the hexadecimal text of a color is in `PaletteBitmap.Color.Hex`, comparing colors
as an eye does in `PaletteBitmap.Color.Perceptual`.
-/

namespace PaletteBitmap

/-! ## Channels -/

/-- The four channels, in the order in which ties between them are broken. -/
inductive Channel where
  | red
  | green
  | blue
  | alpha
  deriving DecidableEq, Repr, Inhabited

structure ChannelError where
  index : Nat
  deriving DecidableEq, Repr

namespace ChannelError

def message (e : ChannelError) : String :=
  s!"channel index {e.index} out of range 0..=3"

end ChannelError

namespace Channel

def all : List Channel := [red, green, blue, alpha]

def ofIndex : Nat → Except ChannelError Channel
  | 0 => .ok red
  | 1 => .ok green
  | 2 => .ok blue
  | 3 => .ok alpha
  | i => .error ⟨i⟩

theorem mem_all (c : Channel) : c ∈ all := by
  cases c <;> simp [all]

end Channel

/-! ## Colors -/

/-- A color with eight bits per channel. -/
structure Rgba where
  r : UInt8
  g : UInt8
  b : UInt8
  a : UInt8
  deriving DecidableEq, Hashable, Repr, Inhabited

namespace Rgba

/-- Transparent black, the color of everything that is not there. -/
def transparent : Rgba := ⟨0, 0, 0, 0⟩

/-- A color that hides what is behind it. -/
def solid (r g b : UInt8) : Rgba := ⟨r, g, b, 255⟩

/-- A color is invisible when its alpha is zero. -/
def isTransparent (c : Rgba) : Bool := c.a == 0

def channel (c : Rgba) : Channel → UInt8
  | .red => c.r
  | .green => c.g
  | .blue => c.b
  | .alpha => c.a

/-- The channels as bytes: red, green, blue, alpha. -/
def toBytes (c : Rgba) : List UInt8 := [c.r, c.g, c.b, c.a]

/-- Reads pixels from their bytes, four bytes a pixel; a last incomplete group is no pixel. -/
def listOfBytes : List UInt8 → List Rgba
  | r :: g :: b :: a :: rest => ⟨r, g, b, a⟩ :: listOfBytes rest
  | _ => []

/-- Writes pixels as bytes, four bytes a pixel. -/
def listToBytes (pixels : List Rgba) : List UInt8 := pixels.flatMap toBytes

@[simp]
theorem listOfBytes_listToBytes (pixels : List Rgba) :
    listOfBytes (listToBytes pixels) = pixels := by
  induction pixels with
  | nil => rfl
  | cons c rest ih =>
      have : listToBytes (c :: rest) = c.r :: c.g :: c.b :: c.a :: listToBytes rest := rfl
      rw [this, listOfBytes, ih]

@[simp]
theorem length_listToBytes (pixels : List Rgba) :
    (listToBytes pixels).length = pixels.length * 4 := by
  induction pixels with
  | nil => rfl
  | cons c rest ih =>
      have : listToBytes (c :: rest) = c.r :: c.g :: c.b :: c.a :: listToBytes rest := rfl
      rw [this]
      simp only [List.length_cons, ih]
      omega

/-- Whole groups of four bytes become pixels, so the count is the quotient. -/
theorem length_listOfBytes (bytes : List UInt8) :
    (listOfBytes bytes).length = bytes.length / 4 := by
  fun_induction listOfBytes bytes with
  | case1 r g b a rest ih => simp only [List.length_cons, ih]; omega
  | case2 t h =>
      match t, h with
      | [], _ | [_], _ | [_, _], _ | [_, _, _], _ =>
          simp only [List.length_cons, List.length_nil]
      | w :: x :: y :: z :: rest, h => exact absurd rfl (h w x y z rest)

end Rgba

end PaletteBitmap

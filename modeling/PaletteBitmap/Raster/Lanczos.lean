import PaletteBitmap.Color.Rgba

/-!
# Scaling with the Lanczos filter

An image is scaled by two passes, first along the columns and then along the rows.  A pass
forms every new pixel as a weighted sum of old ones around its place, with the weights of the
Lanczos window of three lobes, which is stretched when the image shrinks.  All four channels
are treated alike, in single precision; between the passes nothing is rounded or cut off,
after them values are brought to `0..255` and rounded, halves away from zero.
-/

namespace PaletteBitmap
namespace Lanczos

/-! ## The window -/

/-- The ratio of circumference to diameter in single precision. -/
def pi : Float32 := Float32.ofBits 0x40490FDB

/-- The function `sin (π t) / (π t)`. -/
def sinc (t : Float32) : Float32 :=
  let a := t * pi
  if t == 0 then 1 else a.sin / a

/-- The window of three lobes. -/
def window (x : Float32) : Float32 :=
  if x.abs < 3 then sinc x * sinc (x / 3) else 0

/-! ## Weights -/

/-- The old pixels that make up a new one: the first of them, and a weight for it and each
that follows. -/
structure Taps where
  first : Nat
  weights : Array Float32
  deriving Repr, Inhabited

/-- A number cut to a range of whole numbers. -/
def clamp (x : Float32) (low high : Nat) : Nat :=
  max low (min x.toUInt64.toNat high)

/-- The taps of new pixel `o` when `n` pixels become `m`. -/
def taps (n m o : Nat) : Taps :=
  let ratio := Float32.ofNat n / Float32.ofNat m
  -- An image that grows is sampled with the window as it is.
  let stretch := if ratio < 1 then 1 else ratio
  let support := 3 * stretch
  let center := (Float32.ofNat o + 0.5) * ratio
  let left := clamp (center - support).floor 0 (n - 1)
  let right := clamp (center + support).ceil (left + 1) n
  -- Old pixels lie at whole numbers, so the window is centered half a pixel lower.
  let center := center - 0.5
  let raw := (Array.range (right - left)).map fun k =>
    window ((Float32.ofNat (left + k) - center) / stretch)
  let sum := raw.foldl (· + ·) 0
  ⟨left, raw.map (· / sum)⟩

/-- The taps of all new pixels. -/
def allTaps (n m : Nat) : Array Taps := (Array.range m).map (taps n m)

/-! ## Passes -/

/-- The four channels of a pixel while it is worked on. -/
structure Sample where
  r : Float32 := 0
  g : Float32 := 0
  b : Float32 := 0
  a : Float32 := 0
  deriving Repr, Inhabited

namespace Sample

def ofRgba (c : Rgba) : Sample :=
  ⟨Float32.ofNat c.r.toNat, Float32.ofNat c.g.toNat, Float32.ofNat c.b.toNat,
    Float32.ofNat c.a.toNat⟩

/-- Adds a sample times a weight. -/
def addScaled (s t : Sample) (w : Float32) : Sample :=
  ⟨s.r + t.r * w, s.g + t.g * w, s.b + t.b * w, s.a + t.a * w⟩

/-- A channel value cut to a byte and rounded. -/
def toByte (x : Float32) : UInt8 :=
  (if x < 0 then 0 else if 255 < x then 255 else x : Float32).round.toUInt8

def toRgba (s : Sample) : Rgba := ⟨toByte s.r, toByte s.g, toByte s.b, toByte s.a⟩

end Sample

/-- The weighted sum of samples, where `sample i` is the old pixel number `i`. -/
@[specialize]
def Taps.apply (t : Taps) (sample : Nat → Sample) : Sample :=
  (List.range t.weights.size).foldl
    (fun s k => s.addScaled (sample (t.first + k)) (t.weights.getD k 0)) {}

/-- Scales the columns: `width` stays, `height` becomes `newHeight`. -/
def alongColumns (width height newHeight : Nat) (samples : Array Sample) : Array Sample :=
  let taps := allTaps height newHeight
  (Array.range (width * newHeight)).map fun i =>
    (taps.getD (i / width) default).apply fun y => samples.getD (y * width + i % width) {}

/-- Scales the rows: `width` becomes `newWidth`, `height` stays. -/
def alongRows (width newWidth height : Nat) (samples : Array Sample) : Array Sample :=
  let taps := allTaps width newWidth
  (Array.range (newWidth * height)).map fun i =>
    (taps.getD (i % newWidth) default).apply fun x =>
      samples.getD (i / newWidth * width + x) {}

/-- Scales an image of `width * height` pixels to `newWidth * newHeight`. -/
def resize (pixels : List Rgba) (width height newWidth newHeight : Nat) : List Rgba :=
  if newWidth = width ∧ newHeight = height then pixels
  else
    let samples := (pixels.map Sample.ofRgba).toArray
    let columns := alongColumns width height newHeight samples
    ((alongRows width newWidth newHeight columns).map Sample.toRgba).toList

/-- The result has as many pixels as its size says. -/
theorem length_resize (pixels : List Rgba) (width height newWidth newHeight : Nat)
    (h : pixels.length = width * height) :
    (resize pixels width height newWidth newHeight).length = newWidth * newHeight := by
  rw [resize]
  split
  · next hs => rw [h, hs.1, hs.2]
  · simp [alongRows]

end Lanczos
end PaletteBitmap

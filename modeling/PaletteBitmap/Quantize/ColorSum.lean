import PaletteBitmap.Color.Rgba

/-!
# Means of colors

The color that stands for a group of pixels.  Its alpha is the plain mean of theirs.  Its
other channels are means weighted by alpha, so that pixels nobody sees do not tint the ones
that are seen; where no pixel is seen at all, they are plain means.  Halves round up.
-/

namespace PaletteBitmap

/-- The sums of one channel over a group of pixels. -/
structure ChannelSum where
  weighted : Nat := 0
  plain : Nat := 0
  deriving DecidableEq, Repr, Inhabited

/-- Adds `n` pixels with a channel value `v` and alpha `a`. -/
def ChannelSum.add (s : ChannelSum) (v a n : Nat) : ChannelSum :=
  ⟨s.weighted + v * a * n, s.plain + v * n⟩

structure ColorSum where
  red : ChannelSum := {}
  green : ChannelSum := {}
  blue : ChannelSum := {}
  alpha : Nat := 0
  count : Nat := 0
  deriving DecidableEq, Repr, Inhabited

namespace ColorSum

def add (s : ColorSum) (c : Rgba) (n : Nat) : ColorSum :=
  let a := c.a.toNat
  { red := s.red.add c.r.toNat a n
    green := s.green.add c.g.toNat a n
    blue := s.blue.add c.b.toNat a n
    alpha := s.alpha + a * n
    count := s.count + n }

/-- A quotient rounded to the nearest whole number, halves up, and at most 255. -/
def rounded (sum divisor : Nat) : UInt8 :=
  UInt8.ofNat (min ((sum + divisor / 2) / divisor) 255)

/-- One channel of the mean. -/
def channelMean (s : ColorSum) (c : ChannelSum) : UInt8 :=
  if 0 < s.alpha then rounded c.weighted s.alpha else rounded c.plain s.count

/-- The mean color; that of no pixels is transparent black. -/
def mean (s : ColorSum) : Rgba :=
  if s.count = 0 then Rgba.transparent
  else
    ⟨s.channelMean s.red, s.channelMean s.green, s.channelMean s.blue,
      rounded s.alpha s.count⟩

end ColorSum

end PaletteBitmap

import PaletteBitmap.Color.Rgba

/-!
# The content of PNG files

A `Png` is the content of a PNG file: the size, the kind and depth of its samples, the palette
and transparency if there are any, and the rows of samples before any filtering.
-/

namespace PaletteBitmap

inductive SampleKind where
  | gray
  | rgb
  | indexed
  | grayAlpha
  | rgba
  deriving DecidableEq, Repr, Inhabited

namespace SampleKind

def code : SampleKind → UInt8
  | gray => 0
  | rgb => 2
  | indexed => 3
  | grayAlpha => 4
  | rgba => 6

def ofCode? (n : UInt8) : Option SampleKind :=
  [gray, rgb, indexed, grayAlpha, rgba].find? fun k => k.code == n

/-- The samples of a pixel. -/
def samples : SampleKind → Nat
  | gray | indexed => 1
  | grayAlpha => 2
  | rgb => 3
  | rgba => 4

/-- The channels of a color that a kind keeps. -/
def channels (k : SampleKind) (c : Rgba) : List UInt8 :=
  match k with
  | gray | indexed => [c.r]
  | grayAlpha => [c.r, c.a]
  | rgb => [c.r, c.g, c.b]
  | rgba => c.toBytes

end SampleKind

/-- The content of a PNG file. -/
structure Png where
  width : Nat
  height : Nat
  kind : SampleKind
  /-- The bits of a sample. -/
  depth : Nat
  /-- The colors of an indexed image, three bytes each. -/
  palette : Option (List UInt8) := none
  /-- The alphas of an indexed image, or the one color that is transparent, two bytes for each
  of its samples. -/
  transparency : Option (List UInt8) := none
  /-- The rows of samples, each of whole bytes, the leftmost pixel in the high bits. -/
  rows : List UInt8
  deriving DecidableEq, Repr

namespace Png

def stride (p : Png) : Nat := (p.width * p.kind.samples * p.depth + 7) / 8

/-- An image with eight bits a sample. -/
def ofPixels (kind : SampleKind) (width height : Nat) (pixels : List Rgba) : Png :=
  { width := width, height := height, kind := kind, depth := 8
    rows := pixels.flatMap kind.channels }

end Png

end PaletteBitmap

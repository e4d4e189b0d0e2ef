import PaletteBitmap.Color.Rgba
import PaletteBitmap.Color.Light

/-!
# Distances between colors

Colors are compared in the Oklab space, where equal steps look equally large, and with their
alpha: `visibility * (distance in Oklab)² + (difference of alpha)²`, where the visibility is
the smaller of the two alphas.  Two invisible colors are thus equal, whatever their hue.

All arithmetic is in single precision and in the order written here; nothing is regrouped.
-/

namespace PaletteBitmap

/-! ## Spaces -/

/-- Amounts of red, green and blue light. -/
structure LinearRgb where
  r : Float32
  g : Float32
  b : Float32
  deriving Repr

/-- A color in the Oklab space: lightness and two opponent axes. -/
structure Oklab where
  l : Float32
  a : Float32
  b : Float32
  deriving Repr

/-- An Oklab color with its alpha between zero and one. -/
structure Perceptual where
  lab : Oklab
  alpha : Float32
  deriving Repr

namespace LinearRgb

/-- The light of a stored color; alpha plays no part. -/
def ofRgba (c : Rgba) : LinearRgb :=
  ⟨Color.light c.r, Color.light c.g, Color.light c.b⟩

end LinearRgb

namespace Oklab

/-- From light to Oklab: cone responses, their cube roots, opponent axes. -/
def ofLinear (c : LinearRgb) : Oklab :=
  let l := 0.4122214708 * c.r + 0.5363325363 * c.g + 0.0514459929 * c.b
  let m := 0.2119034982 * c.r + 0.6806995451 * c.g + 0.1073969566 * c.b
  let s := 0.0883024619 * c.r + 0.2817188376 * c.g + 0.6299787005 * c.b
  let l' := l.cbrt
  let m' := m.cbrt
  let s' := s.cbrt
  { l := 0.2104542553 * l' + 0.7936177850 * m' - 0.0040720468 * s'
    a := 1.9779984951 * l' - 2.4285922050 * m' + 0.4505937099 * s'
    b := 0.0259040371 * l' + 0.7827717662 * m' - 0.8086757660 * s' }

def ofRgba (c : Rgba) : Oklab := ofLinear (LinearRgb.ofRgba c)

def distance (p q : Oklab) : Float32 :=
  let dl := p.l - q.l
  let da := p.a - q.a
  let db := p.b - q.b
  dl * dl + da * da + db * db

end Oklab

namespace Perceptual

/-- The smaller of two numbers; a `NaN` gives way to the other. -/
def smaller (x y : Float32) : Float32 :=
  if x.isNaN then y else if y < x then y else x

def ofRgba (c : Rgba) : Perceptual :=
  ⟨Oklab.ofRgba c, Float32.ofNat c.a.toNat / 255⟩

/-- The squared distance of two colors, weighted by how visible they are. -/
def distance (p q : Perceptual) : Float32 :=
  let visibility := smaller p.alpha q.alpha
  let da := p.alpha - q.alpha
  visibility * p.lab.distance q.lab + da * da

end Perceptual

end PaletteBitmap

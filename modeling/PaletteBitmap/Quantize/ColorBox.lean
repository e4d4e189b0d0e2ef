import PaletteBitmap.Histogram

/-!
# Boxes of colors

A box is a set of histogram entries with the extent of their colors on each channel.  The
entries of an image start in one box; the box that counts most, by the width of its widest
channel times its pixels, is split at the middle pixel of that channel until there are enough
boxes or none can be split.  Boxes keep the order of the cuts.
-/

namespace PaletteBitmap

/-! ## Extents -/

structure Extent where
  low : Rgba
  high : Rgba
  deriving DecidableEq, Repr, Inhabited

namespace Extent

/-- The extent of no colors: every channel starts from the far ends. -/
def nothing : Extent := ⟨⟨255, 255, 255, 255⟩, ⟨0, 0, 0, 0⟩⟩

/-- Widens an extent to take in a color. -/
def add (e : Extent) (c : Rgba) : Extent :=
  ⟨⟨min e.low.r c.r, min e.low.g c.g, min e.low.b c.b, min e.low.a c.a⟩,
    ⟨max e.high.r c.r, max e.high.g c.g, max e.high.b c.b, max e.high.a c.a⟩⟩

/-- How far a channel reaches; zero for no colors. -/
def width (e : Extent) (ch : Channel) : Nat :=
  (e.high.channel ch).toNat - (e.low.channel ch).toNat

/-- The channel that reaches farthest, the first of several. -/
def widest (e : Extent) : Channel :=
  [Channel.green, .blue, .alpha].foldl
    (fun best ch => if e.width best < e.width ch then ch else best) .red

end Extent

/-! ## Boxes -/

structure Member where
  position : Nat
  color : Rgba
  count : Nat
  deriving DecidableEq, Repr, Inhabited

/-- Some histogram entries, their pixels and their extent. -/
structure ColorBox where
  members : List Member
  population : Nat
  extent : Extent
  deriving DecidableEq, Repr, Inhabited

namespace ColorBox

/-- The number of pixels of some entries. -/
def populationOf (members : List Member) : Nat := (members.map (·.count)).foldr (· + ·) 0

def extentOf (members : List Member) : Extent :=
  members.foldl (fun e m => e.add m.color) Extent.nothing

def ofMembers (members : List Member) : ColorBox :=
  ⟨members, populationOf members, extentOf members⟩

/-- How much a box counts when the next one to split is chosen; zero if it cannot be split. -/
def score (box : ColorBox) : Nat :=
  if box.members.length < 2 then 0
  else box.extent.width box.extent.widest * box.population

/-- How many entries, from the first on, it takes to reach `half` pixels, with `running`
pixels before them; all of them if that is never reached. -/
def reach (half running : Nat) : List Member → Nat
  | [] => 0
  | m :: rest =>
    let running := running + m.count
    if half ≤ running then 1 else reach half running rest + 1

/-- Where a sorted box is cut: at the middle pixel, with an entry left on either side. -/
def cut (population : Nat) (sorted : List Member) : Nat :=
  max 1 (min (reach ((population + 1) / 2) 0 sorted) (sorted.length - 1))

/-- The entries in the order of a channel; equal values keep their order. -/
def sortBy (ch : Channel) (members : List Member) : List Member :=
  members.mergeSort fun m n => decide (m.color.channel ch ≤ n.color.channel ch)

/-- Splits a box at the middle pixel of its widest channel. -/
def split (box : ColorBox) : ColorBox × ColorBox :=
  let sorted := sortBy box.extent.widest box.members
  -- Both halves have members: `cut` stays between one and the length less one.
  let k := cut box.population sorted
  (ofMembers (sorted.take k), ofMembers (sorted.drop k))

/-- The best position and score after looking at boxes from position `i` on. -/
def bestFrom (i : Nat) (best : Option (Nat × Nat)) : List ColorBox → Option (Nat × Nat)
  | [] => best
  | box :: rest =>
    let s := box.score
    let better : Bool := match best with
      | none => decide (0 < s)
      | some (_, top) => decide (top < s)
    bestFrom (i + 1) (if better then some (i, s) else best) rest

/-- The position of the box to split next: the highest score above zero, the first of
several. -/
def best? (boxes : List ColorBox) : Option Nat := (bestFrom 0 none boxes).map (·.1)

/-- Puts the two halves of the box at a position in its place. -/
def splitAt (boxes : List ColorBox) (i : Nat) : List ColorBox :=
  match boxes[i]? with
  | none => boxes
  | some box =>
    let halves := box.split
    boxes.take i ++ halves.1 :: halves.2 :: boxes.drop (i + 1)

/-- Splits up to `n` times. -/
def splitTimes : Nat → List ColorBox → List ColorBox
  | 0, boxes => boxes
  | n + 1, boxes =>
    match best? boxes with
    | none => boxes
    | some i => splitTimes n (splitAt boxes i)

end ColorBox

/-! ## Clusterings -/

/-- A cluster for every histogram entry, and how many clusters there are. -/
structure Clustering where
  assignment : List Nat
  clusters : Nat
  deriving DecidableEq, Repr, Inhabited

namespace Clustering

/-- Every entry by itself. -/
def identity (n : Nat) : Clustering := ⟨List.range n, n⟩

/-- The entries of a histogram with their positions. -/
def membersOf (entries : List HistogramEntry) : List Member :=
  entries.zipIdx.map fun (e, i) => ⟨i, e.color, e.count⟩

/-- Writes the number of a box at the positions of its members. -/
def mark (assignment : Array Nat) (cluster : Nat) (box : ColorBox) : Array Nat :=
  box.members.foldl (fun a m => a.setIfInBounds m.position cluster) assignment

/-- The clustering in which the boxes are the clusters. -/
def ofBoxes (n : Nat) (boxes : List ColorBox) : Clustering :=
  ⟨(boxes.zipIdx.foldl (fun a (box, i) => mark a i box) (Array.replicate n 0)).toList,
    boxes.length⟩

/-- Cuts the entries into at most `maxBoxes` boxes at the medians of their colors. -/
def medianCut (entries : List HistogramEntry) (maxBoxes : Nat) : Clustering :=
  if entries.isEmpty || maxBoxes == 0 then ⟨[], 0⟩
  else
    ofBoxes entries.length
      (ColorBox.splitTimes (maxBoxes - 1) [ColorBox.ofMembers (membersOf entries)])

end Clustering

end PaletteBitmap

import PaletteBitmap.Color.Perceptual
import PaletteBitmap.Nearest
import PaletteBitmap.Quantize.ColorBox
import PaletteBitmap.Quantize.ColorSum

/-!
# Refining clusters

A round takes the mean color of every cluster and moves each histogram entry to the cluster
whose mean is nearest to it.  A cluster that lost all its entries is given back the entry
with the largest error among those whose cluster can spare one.  Rounds are repeated until
nothing changes or there have been enough.

The measure of distance is a parameter throughout.
-/

namespace PaletteBitmap
namespace Clustering

/-! ## Means -/

def sums (entries : List HistogramEntry) (assignment : List Nat) (clusters : Nat) :
    Array ColorSum :=
  (entries.zip assignment).foldl
    (fun sums (e, k) => sums.modify k fun s => s.add e.color e.count)
    (Array.replicate clusters {})

/-- The mean of every cluster that has pixels. -/
def centers (sums : Array ColorSum) : List (Option Perceptual) :=
  sums.toList.map fun s => if 0 < s.count then some (Perceptual.ofRgba s.mean) else none

/-! ## Moving entries -/

/-- Where an entry is put, how much it adds to the error, and whether it was moved to fill an
empty cluster. -/
structure Placement where
  cluster : Nat
  error : Float32
  moved : Bool := false

/-- The nearest of the centers to a point, the first of several, and its distance. -/
def nearestCenter (dist : Perceptual → Perceptual → Float32)
    (centers : List (Option Perceptual)) (point : Perceptual) : Nat × Float32 :=
  Nearest.scan (fun center => dist point center) 0 Nearest.infinity 0 centers

/-- Puts an entry with its nearest center. -/
def place (dist : Perceptual → Perceptual → Float32) (centers : List (Option Perceptual))
    (entry : HistogramEntry) (point : Perceptual) : Placement :=
  let (cluster, distance) := nearestCenter dist centers point
  { cluster := cluster, error := distance * Float32.ofNat entry.count }

/-- How many entries each cluster has. -/
def sizes (placements : Array Placement) (clusters : Nat) : Array Nat :=
  placements.foldl (fun sizes p => sizes.modify p.cluster (· + 1)) (Array.replicate clusters 0)

/-- The entry to move into an empty cluster: of those not moved before whose cluster has
another one left, the one with the largest error, the first of several. -/
def donorFrom (sizes : Array Nat) (i : Nat) (best : Option (Nat × Float32)) :
    List Placement → Option Nat
  | [] => best.map (·.1)
  | p :: rest =>
    if p.moved || sizes.getD p.cluster 0 < 2 then donorFrom sizes (i + 1) best rest
    else
      match best with
      | none => donorFrom sizes (i + 1) (some (i, p.error)) rest
      | some (_, top) =>
        donorFrom sizes (i + 1) (if p.error > top then some (i, p.error) else best) rest

/-- Gives one cluster an entry if it has none. -/
def fill (clusters : Nat) (placements : Array Placement) (cluster : Nat) : Array Placement :=
  -- Earlier moves count: a cluster that was just filled may not be emptied again.
  let sizes := sizes placements clusters
  if 0 < sizes.getD cluster 0 then placements
  else
    match donorFrom sizes 0 none placements.toList with
    | none => placements
    | some i => placements.modify i fun p => { p with cluster := cluster, moved := true }

/-- Gives every cluster without entries one. -/
def fillAll (clusters : Nat) (placements : Array Placement) : Array Placement :=
  (List.range clusters).foldl (fill clusters) placements

/-! ## Rounds -/

/-- One round: means, nearest centers, empty clusters filled. -/
def round (dist : Perceptual → Perceptual → Float32) (entries : List HistogramEntry)
    (points : List Perceptual) (clusters : Nat) (assignment : List Nat) : List Nat :=
  let centers := centers (sums entries assignment clusters)
  let placements := List.zipWith (place dist centers) entries points
  ((fillAll clusters placements.toArray).map (·.cluster)).toList

/-- Repeats a step up to `n` times, or until it changes nothing. -/
def settle (step : List Nat → List Nat) : Nat → List Nat → List Nat
  | 0, assignment => assignment
  | n + 1, assignment =>
    let next := step assignment
    if next = assignment then assignment else settle step n next

/-- Refines an assignment by up to `iterations` rounds. -/
def refine (dist : Perceptual → Perceptual → Float32) (entries : List HistogramEntry)
    (assignment : List Nat) (clusters iterations : Nat) : List Nat :=
  if clusters < 2 then assignment
  else
    let points := entries.map fun e => Perceptual.ofRgba e.color
    settle (round dist entries points clusters) iterations assignment

end Clustering
end PaletteBitmap

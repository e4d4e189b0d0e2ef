/-!
# The nearest of several points

A search for the point at the least distance from a target.  It keeps a running best and
replaces it only by something strictly nearer, so of two points at the same distance the
earlier one wins, and a point whose distance is no number is never chosen.  Points may be
absent; an absent one keeps its position and is passed over.
-/

namespace PaletteBitmap
namespace Nearest

/-- Runs over the points from position `i` on, given the best position and distance so far. -/
@[specialize]
def scan (dist : α → Float32) (best : Nat) (least : Float32) (i : Nat) :
    List (Option α) → Nat × Float32
  | [] => (best, least)
  | none :: rest => scan dist best least (i + 1) rest
  | some p :: rest =>
    let d := dist p
    if d < least then scan dist i d (i + 1) rest else scan dist best least (i + 1) rest

/-- The largest finite single-precision number. -/
def largest : Float32 := Float32.ofBits 0x7F7FFFFF

/-- Positive infinity. -/
def infinity : Float32 := Float32.ofBits 0x7F800000

end Nearest
end PaletteBitmap

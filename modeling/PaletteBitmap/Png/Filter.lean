import PaletteBitmap.Png.Basic

/-!
# Filters of PNG files

In a file each row stands behind the number of a filter.  Filtered samples are differences to a
guess from the samples on the left and in the row above.
-/

namespace PaletteBitmap
namespace Png

/-- The sample that is nearest to the sum of the left and upper ones less the corner. -/
def paeth (a b c : UInt8) : UInt8 :=
  let p : Int := a.toNat + b.toNat - c.toNat
  let pa := (p - a.toNat).natAbs
  let pb := (p - b.toNat).natAbs
  let pc := (p - c.toNat).natAbs
  if pa ≤ pb ∧ pa ≤ pc then a else if pb ≤ pc then b else c

/-- Undoes the filter of a row; `bpp` is the distance in bytes to the pixel on the left. -/
def unfilter (filter : UInt8) (bpp : Nat) (above : Array UInt8) (row : List UInt8) :
    Array UInt8 :=
  row.foldl
    (fun done x =>
      let i := done.size
      let left := if i < bpp then 0 else done.getD (i - bpp) 0
      let up := above.getD i 0
      let corner := if i < bpp then 0 else above.getD (i - bpp) 0
      let guess : UInt8 := match filter with
        | 0 => 0
        | 1 => left
        | 2 => up
        | 3 => UInt8.ofNat ((left.toNat + up.toNat) / 2)
        | _ => paeth left up corner
      done.push (x + guess)) #[]

/-- Undoes the filters of rows, each of which begins with the number of its filter. -/
def unfilterRows (bpp : Nat) (above : Array UInt8) : List (List UInt8) → Option (List UInt8)
  | [] => some []
  | [] :: _ => none
  | (filter :: row) :: rest =>
    if 4 < filter then none
    else
      let done := unfilter filter bpp above row
      (unfilterRows bpp done rest).map (done.toList ++ ·)

end Png
end PaletteBitmap

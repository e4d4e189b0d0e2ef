import Mathlib
import PaletteBitmap.Palette.Basic
import PaletteBitmap.Proofs.Settling

/-!
# The first of the nearest points

Two searches look for the point nearest to a target.  That of a palette starts from the largest
finite number, and every entry is there; that of a round of refinement starts from infinity, and
the centers of empty clusters are absent.  Both replace their best only by something strictly
nearer, so both find the first of the points at the least distance (`Nearest.FirstLeast`).  There
is only one such position, and so they agree (`nearest_searches_agree`).

The argument needs an order of the distances, and single-precision numbers have one only as long as
none of them is `NaN`.  What is below another number is a number itself (`SinglePrecision.lt_iff`),
so it is enough that every distance is below the largest finite one.
-/

namespace PaletteBitmap

/-! ## The order of single-precision numbers -/

namespace SinglePrecision

open Float.Model (UnpackedFloat)
open Float.Model.UnpackedFloat (Sign)

/-- Where a number stands among the others: its kind and sign come first, then its exponent, then
its mantissa.  Both zeros stand at one place. -/
def rankOf : UnpackedFloat → ℤ ×ₗ ℤ ×ₗ ℤ
  | .infinity .negative => toLex (-2, toLex (0, 0))
  | .finite .negative m e _ => toLex (-1, toLex (-e, -m))
  | .zero _ | .notANumber => toLex (0, toLex (0, 0))
  | .finite .positive m e _ => toLex (1, toLex (e, m))
  | .infinity .positive => toLex (2, toLex (0, 0))

theorem compare_eq_lt_iff {x y : UnpackedFloat} :
    x.compare y = some .lt ↔ x.isNaN = false ∧ y.isNaN = false ∧ rankOf x < rankOf y := by
  have hsign : compare Sign.negative .positive = .lt := rfl
  -- Exponents are compared before mantissas only if both numbers are finite and of one sign.
  rcases x with (_ | _) | _ | _ | ⟨_ | _, m, e, hm⟩ <;>
    rcases y with (_ | _) | _ | _ | ⟨_ | _, n, f, hn⟩ <;>
    simp [UnpackedFloat.compare, UnpackedFloat.isNaN, rankOf, Prod.Lex.lt_iff,
      Ordering.then_eq_lt, Ordering.then_eq_gt, Int.compare_eq_lt, Int.compare_eq_gt,
      Nat.compare_eq_lt, Nat.compare_eq_gt]
  exact hsign

def rank (x : Float32) : ℤ ×ₗ ℤ ×ₗ ℤ := rankOf x.toModel.unpack

variable {x y z : Float32}

/-- One number is below another if neither is `NaN` and it comes first in the order of all. -/
theorem lt_iff : x < y ↔ x.isNaN = false ∧ y.isNaN = false ∧ rank x < rank y := by
  change decide (x.toModel < y.toModel) = true ↔ _
  rw [decide_eq_true_iff]
  change (x.toModel.unpack.compare y.toModel.unpack == some .lt) = true ↔ _
  rw [beq_iff_eq]
  exact compare_eq_lt_iff

theorem isNaN_of_lt (h : x < y) : x.isNaN = false := (lt_iff.1 h).1

theorem lt_trans (hxy : x < y) (hyz : y < z) : x < z := by
  obtain ⟨hx, -, hlt⟩ := lt_iff.1 hxy
  obtain ⟨-, hz, hlt'⟩ := lt_iff.1 hyz
  exact lt_iff.2 ⟨hx, hz, hlt.trans hlt'⟩

theorem not_lt_of_lt (h : x < y) : ¬ y < x := by
  intro hback
  exact lt_asymm (lt_iff.1 h).2.2 (lt_iff.1 hback).2.2

/-- What is below a number is below all that are not. -/
theorem lt_of_lt_of_not_lt (hz : z.isNaN = false) (hxy : x < y) (hzy : ¬ z < y) : x < z := by
  obtain ⟨hx, hy, hlt⟩ := lt_iff.1 hxy
  have hle : rank y ≤ rank z := not_lt.1 fun hback => hzy (lt_iff.2 ⟨hz, hy, hback⟩)
  exact lt_iff.2 ⟨hx, hz, hlt.trans_le hle⟩

end SinglePrecision

/-! ## Searching -/

namespace Nearest

theorem largest_lt_infinity : largest < infinity := by decide +kernel

variable {α : Type} {dist : α → Float32} {point : Option α} {points rest : List (Option α)}
  {i j : Nat} {d e : Float32}

/-- Position `i` is that of the first point at the least distance, which is `d`.  Absent points
have a position but no distance. -/
structure FirstLeast (dist : α → Float32) (points : List (Option α)) (i : Nat) (d : Float32) :
    Prop where
  found : ∃ p, points[i]? = some (some p) ∧ dist p = d
  least : ∀ q, some q ∈ points → ¬ dist q < d
  first : ∀ j q, j < i → points[j]? = some (some q) → d < dist q

theorem FirstLeast.not_lt (hi : FirstLeast dist points i d) (hj : FirstLeast dist points j e) :
    ¬ i < j := by
  intro hlt
  obtain ⟨p, hp, rfl⟩ := hi.found
  obtain ⟨q, hq, rfl⟩ := hj.found
  exact hi.least q (List.mem_of_getElem? hq) (hj.first i p hlt hp)

theorem FirstLeast.unique (hi : FirstLeast dist points i d) (hj : FirstLeast dist points j e) :
    i = j :=
  Nat.le_antisymm (Nat.not_lt.1 (hj.not_lt hi)) (Nat.not_lt.1 (hi.not_lt hj))

theorem firstLeast_head {p : α} (h : ∀ q, some q ∈ rest → ¬ dist q < dist p) :
    FirstLeast dist (some p :: rest) 0 (dist p) where
  found := ⟨p, rfl, rfl⟩
  least := by
    intro q hq
    rcases List.mem_cons.1 hq with hqp | hmem
    · cases hqp
      exact fun hlt => SinglePrecision.not_lt_of_lt hlt hlt
    · exact h q hmem
  first := fun j _ hj => absurd hj (Nat.not_lt_zero j)

/-- A point put in front changes nothing but the position, if it is absent or farther away. -/
theorem FirstLeast.cons (h : FirstLeast dist rest i d) (hpoint : ∀ p, point = some p → d < dist p) :
    FirstLeast dist (point :: rest) (i + 1) d where
  found := h.found
  least := by
    intro q hq
    rcases List.mem_cons.1 hq with hqp | hmem
    · exact SinglePrecision.not_lt_of_lt (hpoint q hqp.symm)
    · exact h.least q hmem
  first := by
    intro j q hj hq
    cases j with
    | zero => exact hpoint q (Option.some.inj hq)
    | succ j => exact h.first j q (Nat.lt_of_succ_lt_succ hj) hq

/-- A search keeps what it started with if nothing is nearer; otherwise it ends with the first of
the nearest points.  No distance may be `NaN`. -/
theorem scan_cases (best i : Nat) {least : Float32}
    (hpoints : ∀ p, some p ∈ points → (dist p).isNaN = false) :
    (scan dist best least i points = (best, least) ∧ ∀ p, some p ∈ points → ¬ dist p < least) ∨
    ∃ j d, scan dist best least i points = (i + j, d) ∧ d < least ∧
      FirstLeast dist points j d := by
  induction points generalizing best i least with
  | nil => exact .inl ⟨rfl, fun _ hp => absurd hp List.not_mem_nil⟩
  | cons point rest ih =>
      have hrest : ∀ p, some p ∈ rest → (dist p).isNaN = false :=
        fun p hp => hpoints p (List.mem_cons_of_mem _ hp)
      have hposition : ∀ j, i + 1 + j = i + (j + 1) := fun j => by omega
      cases point with
      | none =>
          rw [scan]
          rcases ih best (i + 1) hrest with ⟨hscan, hnone⟩ | ⟨j, d, hscan, hlt, hfirst⟩
          · exact .inl ⟨hscan, by simpa using hnone⟩
          · rw [hposition] at hscan
            exact .inr ⟨j + 1, d, hscan, hlt, hfirst.cons nofun⟩
      | some p =>
          rw [scan]
          split
          -- The point becomes the best, and it stays so unless a later one is nearer still.
          · next hp =>
            rcases ih i (i + 1) hrest with ⟨hscan, hnone⟩ | ⟨j, d, hscan, hlt, hfirst⟩
            · exact .inr ⟨0, dist p, hscan, hp, firstLeast_head hnone⟩
            · rw [hposition] at hscan
              refine .inr ⟨j + 1, d, hscan, SinglePrecision.lt_trans hlt hp, hfirst.cons ?_⟩
              rintro q ⟨⟩
              exact hlt
          -- The point is passed over, and what is nearer than the best is nearer than it.
          · next hp =>
            rcases ih best (i + 1) hrest with ⟨hscan, hnone⟩ | ⟨j, d, hscan, hlt, hfirst⟩
            · refine .inl ⟨hscan, ?_⟩
              intro q hq
              rcases List.mem_cons.1 hq with hqp | hmem
              · cases hqp
                exact hp
              · exact hnone q hmem
            · rw [hposition] at hscan
              refine .inr ⟨j + 1, d, hscan, hlt, hfirst.cons ?_⟩
              rintro q ⟨⟩
              exact SinglePrecision.lt_of_lt_of_not_lt (hpoints p List.mem_cons_self) hlt hp

/-- A search that starts above all distances finds the first of the nearest points. -/
theorem firstLeast_scan {start : Float32} (best : Nat) (hpresent : ∃ p, some p ∈ points)
    (hbelow : ∀ p, some p ∈ points → dist p < start) :
    FirstLeast dist points (scan dist best start 0 points).1 (scan dist best start 0 points).2 := by
  obtain ⟨p, hp⟩ := hpresent
  rcases scan_cases best 0 (fun q hq => SinglePrecision.isNaN_of_lt (hbelow q hq)) with
    ⟨-, hnone⟩ | ⟨j, d, hscan, -, hfirst⟩
  · exact absurd (hbelow p hp) (hnone p hp)
  · rw [hscan, Nat.zero_add]
    exact hfirst

end Nearest

/-! ## Main statement -/

section Main

open Clustering Nearest

variable {dist : Perceptual → Perceptual → Float32}

theorem exists_mem_points (p : Palette) : ∃ point, some point ∈ p.points := by
  obtain ⟨x, hx⟩ := List.exists_mem_of_ne_nil _ p.entries_ne_nil
  exact ⟨.ofRgba x, List.mem_map.2 ⟨x, hx, rfl⟩⟩

theorem forall_mem_points {p : Palette} {P : Perceptual → Prop}
    (h : ∀ x ∈ p.entries, P (.ofRgba x)) : ∀ point, some point ∈ p.points → P point := by
  intro point hpoint
  obtain ⟨x, hx, heq⟩ := List.mem_map.1 hpoint
  cases heq
  exact h x hx

theorem firstLeast_nearestWith {p : Palette} {c : Rgba}
    (hbelow : ∀ x ∈ p.entries, dist (.ofRgba c) (.ofRgba x) < largest) :
    ∃ d, FirstLeast (dist (.ofRgba c)) p.points (p.nearestWith dist c) d :=
  ⟨_, firstLeast_scan 0 (exists_mem_points p) (forall_mem_points hbelow)⟩

theorem firstLeast_nearestCenter {centers : List (Option Perceptual)} {target : Perceptual}
    (hpresent : ∃ p, some p ∈ centers)
    (hbelow : ∀ p, some p ∈ centers → dist target p < largest) :
    FirstLeast (dist target) centers (nearestCenter dist centers target).1
      (nearestCenter dist centers target).2 :=
  firstLeast_scan 0 hpresent fun p hp =>
    SinglePrecision.lt_trans (hbelow p hp) largest_lt_infinity

/-- With any measure of distance that stays below the largest finite number, the search of a palette
and that among the same points as centers find one position: that of the first entry at the least
distance.  With some centers absent, the second finds the first at the least distance of those
that are there. -/
theorem nearest_searches_agree (dist : Perceptual → Perceptual → Float32) (c : Rgba) :
    (∀ p : Palette, (∀ x ∈ p.entries, dist (.ofRgba c) (.ofRgba x) < largest) →
      p.nearestWith dist c = (nearestCenter dist p.points (.ofRgba c)).1 ∧
      ∃ d, FirstLeast (dist (.ofRgba c)) p.points (p.nearestWith dist c) d) ∧
    ∀ centers : List (Option Perceptual), (∃ p, some p ∈ centers) →
      (∀ p, some p ∈ centers → dist (.ofRgba c) p < largest) →
      FirstLeast (dist (.ofRgba c)) centers (nearestCenter dist centers (.ofRgba c)).1
        (nearestCenter dist centers (.ofRgba c)).2 := by
  constructor
  · intro p hbelow
    obtain ⟨d, hentry⟩ := firstLeast_nearestWith hbelow
    have hcenter := firstLeast_nearestCenter (exists_mem_points p) (forall_mem_points hbelow)
    exact ⟨hentry.unique hcenter, d, hentry⟩
  · intro centers
    exact firstLeast_nearestCenter

/-- Two blacks and a white; the white is as visible as the second black. -/
def frosts : Palette where
  entries := [⟨0, 0, 0, 200⟩, ⟨0, 0, 0, 100⟩, ⟨255, 255, 255, 100⟩]
  entries_ne_nil := by decide
  nodup := by decide

/-- The points of the same colors as centers, the second of them absent. -/
def thawed : List (Option Perceptual) :=
  [some (.ofRgba ⟨0, 0, 0, 200⟩), none, some (.ofRgba ⟨255, 255, 255, 100⟩)]

/-- Of the two entries that are equally visible the first is found, and if it is absent the other. -/
theorem frosts_agree :
    (∀ x ∈ frosts.entries, visibility (.ofRgba ⟨9, 9, 9, 110⟩) (.ofRgba x) < largest) ∧
    frosts.nearestWith visibility ⟨9, 9, 9, 110⟩ = 1 ∧
    (nearestCenter visibility frosts.points (.ofRgba ⟨9, 9, 9, 110⟩)).1 = 1 ∧
    (∃ d, FirstLeast (visibility (.ofRgba ⟨9, 9, 9, 110⟩)) frosts.points 1 d) ∧
    (∃ p, some p ∈ thawed) ∧
    (∀ p, some p ∈ thawed → visibility (.ofRgba ⟨9, 9, 9, 110⟩) p < largest) ∧
    ∃ d, FirstLeast (visibility (.ofRgba ⟨9, 9, 9, 110⟩)) thawed 2 d := by
  have hbelow : ∀ x ∈ frosts.entries,
      visibility (.ofRgba ⟨9, 9, 9, 110⟩) (.ofRgba x) < largest := by decide +kernel
  have hentry : frosts.nearestWith visibility ⟨9, 9, 9, 110⟩ = 1 := by decide +kernel
  have hcenter : (nearestCenter visibility thawed (.ofRgba ⟨9, 9, 9, 110⟩)).1 = 2 := by
    decide +kernel
  have hpresent : ∃ p, some p ∈ thawed := ⟨.ofRgba ⟨0, 0, 0, 200⟩, List.mem_cons_self⟩
  have hthawed : ∀ p, some p ∈ thawed →
      visibility (.ofRgba ⟨9, 9, 9, 110⟩) p < largest := by
    intro p hp
    simp only [thawed, List.mem_cons, Option.some.injEq, reduceCtorEq, List.not_mem_nil, or_false,
      false_or] at hp
    rcases hp with rfl | rfl
    · exact hbelow ⟨0, 0, 0, 200⟩ (by decide)
    · exact hbelow ⟨255, 255, 255, 100⟩ (by decide)
  obtain ⟨hpalette, hcenters⟩ := nearest_searches_agree visibility ⟨9, 9, 9, 110⟩
  obtain ⟨hagree, hfirst⟩ := hpalette frosts hbelow
  have habsent := hcenters thawed hpresent hthawed
  rw [hentry] at hagree hfirst
  rw [hcenter] at habsent
  exact ⟨hbelow, hentry, hagree.symm, hfirst, hpresent, hthawed, _, habsent⟩

end Main

end PaletteBitmap

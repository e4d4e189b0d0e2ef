import Mathlib.Logic.Function.Iterate
import PaletteBitmap.Quantize.Refine

/-!
# Rounds without end

Refinement stops at the first round that changes nothing.  Whether it stopped there or used up all
the rounds it was allowed cannot be seen in what it answers: the answer is that of as many full
rounds as were allowed, one after another (`refine_eq_iterate`).

A full round (`step`) is written here without anything that is computed once for all rounds, so it
depends on the entries and on the assignment before it, and on nothing that an earlier round left
behind.  No assignment is excluded and nothing is assumed of the distances.
-/

namespace PaletteBitmap

namespace Clustering

/-! ## Repeated steps -/

/-- The rounds that are left out when nothing changes any more would not have changed anything. -/
theorem settle_eq_iterate (step : List Nat → List Nat) (n : Nat) (assignment : List Nat) :
    settle step n assignment = step^[n] assignment := by
  induction n generalizing assignment with
  | zero => rfl
  | succ n ih =>
      rw [settle, Function.iterate_succ_apply]
      split
      · next hsame => rw [hsame, Function.iterate_fixed hsame]
      · exact ih (step assignment)

/-- What one more step does not change, no number of further steps changes. -/
theorem iterate_eq_of_stable {step : List Nat → List Nat} {assignment : List Nat} {k n : Nat}
    (hstable : step^[k + 1] assignment = step^[k] assignment) (hn : k ≤ n) :
    step^[n] assignment = step^[k] assignment := by
  rw [Function.iterate_succ_apply'] at hstable
  obtain ⟨more, rfl⟩ := Nat.exists_eq_add_of_le' hn
  rw [Function.iterate_add_apply, Function.iterate_fixed hstable]

/-! ## Full rounds -/

variable (dist : Perceptual → Perceptual → Float32) (entries : List HistogramEntry)

/-- One full round: the means of the clusters of an assignment, every entry with the nearest of
them, and an entry for every cluster that got none. -/
def step (clusters : Nat) (assignment : List Nat) : List Nat :=
  let means := centers (sums entries assignment clusters)
  let placements := entries.map fun e => place dist means e (Perceptual.ofRgba e.color)
  ((fillAll clusters placements.toArray).map (·.cluster)).toList

/-- Rounds that are told where the colors lie are full rounds. -/
theorem round_eq_step (clusters : Nat) :
    round dist entries (entries.map fun e => Perceptual.ofRgba e.color) clusters =
      step dist entries clusters := by
  funext assignment
  rw [round, step, List.zipWith_map_right, List.zipWith_self]

theorem refine_eq_iterate_step {clusters : Nat} (hclusters : 2 ≤ clusters) (assignment : List Nat)
    (iterations : Nat) : refine dist entries assignment clusters iterations =
      (step dist entries clusters)^[iterations] assignment := by
  rw [refine, if_neg (Nat.not_lt.2 hclusters)]
  simp only [round_eq_step, settle_eq_iterate]

/-! ## Main statement -/

/-- Stopping early does not show.  With two clusters or more, refinement by up to `k` rounds is a
full round applied `k` times.  So where one more round allowed makes no difference, any number of
further rounds makes none. -/
theorem refine_eq_iterate {clusters : Nat} (hclusters : 2 ≤ clusters) (assignment : List Nat) :
    (∀ k, refine dist entries assignment clusters k =
      (step dist entries clusters)^[k] assignment) ∧
    ∀ k, refine dist entries assignment clusters (k + 1) =
        refine dist entries assignment clusters k →
      ∀ n, k ≤ n → refine dist entries assignment clusters n =
        refine dist entries assignment clusters k := by
  have hall := refine_eq_iterate_step dist entries hclusters assignment
  refine ⟨hall, ?_⟩
  intro k hstable n hn
  rw [hall, hall] at hstable ⊢
  exact iterate_eq_of_stable hstable hn

/-- Six blacks, more and more visible. -/
def veils : List HistogramEntry :=
  [0, 40, 80, 120, 160, 255].map fun a => ⟨⟨0, 0, 0, a⟩, 1⟩

/-- How much more visible one color is than another, and nothing else. -/
def visibility (p q : Perceptual) : Float32 :=
  (p.alpha - q.alpha) * (p.alpha - q.alpha)

/-- Two rounds move an entry each and the third moves none, so a million rounds come to the same. -/
theorem veils_settle : 2 ≤ 2 ∧
    refine visibility veils [0, 1, 1, 1, 1, 1] 2 1 = [0, 0, 1, 1, 1, 1] ∧
    refine visibility veils [0, 1, 1, 1, 1, 1] 2 2 = [0, 0, 0, 1, 1, 1] ∧
    refine visibility veils [0, 1, 1, 1, 1, 1] 2 1000000 = [0, 0, 0, 1, 1, 1] ∧
    (step visibility veils 2)^[1000000] [0, 1, 1, 1, 1, 1] = [0, 0, 0, 1, 1, 1] := by
  have hone : refine visibility veils [0, 1, 1, 1, 1, 1] 2 1 = [0, 0, 1, 1, 1, 1] := by
    decide +kernel
  have htwo : refine visibility veils [0, 1, 1, 1, 1, 1] 2 2 = [0, 0, 0, 1, 1, 1] := by
    decide +kernel
  have hthree : refine visibility veils [0, 1, 1, 1, 1, 1] 2 3 = [0, 0, 0, 1, 1, 1] := by
    decide +kernel
  obtain ⟨hiterate, hsettled⟩ :=
    refine_eq_iterate visibility veils (Nat.le_refl 2) [0, 1, 1, 1, 1, 1]
  have hmillion : refine visibility veils [0, 1, 1, 1, 1, 1] 2 1000000 = [0, 0, 0, 1, 1, 1] :=
    (hsettled 2 (hthree.trans htwo.symm) 1000000 (by decide)).trans htwo
  exact ⟨Nat.le_refl 2, hone, htwo, hmillion, (hiterate 1000000).symm.trans hmillion⟩

end Clustering

end PaletteBitmap

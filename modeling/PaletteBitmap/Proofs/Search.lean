import PaletteBitmap.Quantize.Refine

/-!
# Searches that keep the best so far

Three searches run through a list and keep the best of what they have passed: for the box to split,
for the entry to move into an empty cluster, and for the nearest center.  What they compare differs,
and two of them compare numbers that need not be in any order, so nothing is said here about what
comes out best.  What is said is that the answer was passed and was allowed (`FoundFrom`), and that
there is no answer only where nothing was allowed.
-/

namespace PaletteBitmap

/-- What is at position `j` of a list that is numbered from `i` on. -/
def FoundFrom {α : Type} (P : α → Prop) (i : Nat) (xs : List α) (j : Nat) : Prop :=
  i ≤ j ∧ ∃ x, xs[j - i]? = some x ∧ P x

section FoundFrom

variable {α : Type} {P : α → Prop} {i j : Nat} {x : α} {xs : List α}

theorem foundFrom_head (h : P x) : FoundFrom P i (x :: xs) i :=
  ⟨Nat.le_refl i, x, by simp, h⟩

theorem FoundFrom.tail (h : FoundFrom P (i + 1) xs j) : FoundFrom P i (x :: xs) j := by
  obtain ⟨hle, y, hy, hP⟩ := h
  have hsub : j - i = j - (i + 1) + 1 := by omega
  refine ⟨Nat.le_of_succ_le hle, y, ?_, hP⟩
  rw [hsub, List.getElem?_cons_succ, hy]

end FoundFrom

/-! ## The box to split -/

namespace ColorBox

/-- The best of some boxes is one of them, or the best from before; new ones have a score. -/
theorem bestFrom_eq_some {i j t : Nat} {best : Option (Nat × Nat)} {boxes : List ColorBox}
    (h : bestFrom i best boxes = some (j, t)) :
    best = some (j, t) ∨ FoundFrom (fun b => 0 < b.score) i boxes j := by
  induction boxes generalizing i best with
  | nil => exact .inl h
  | cons box rest ih =>
      have hself : 0 < box.score → some (i, box.score) = some (j, t) →
          FoundFrom (fun b => 0 < b.score) i (box :: rest) j := by
        rintro hscore ⟨⟩
        exact foundFrom_head hscore
      rw [bestFrom.eq_def] at h
      rcases ih h with hbest | hrest
      · -- The box itself is the best so far if its score is above zero, or above a score before.
        cases best with
        | none =>
            simp only [decide_eq_true_eq] at hbest
            split at hbest
            · next hscore => exact .inr (hself hscore hbest)
            · cases hbest
        | some top =>
            simp only [decide_eq_true_eq] at hbest
            split at hbest
            · next hscore => exact .inr (hself (by omega) hbest)
            · exact .inl hbest
      · exact .inr hrest.tail

/-- There is no best box only where no box has a score. -/
theorem bestFrom_eq_none {i : Nat} {best : Option (Nat × Nat)} {boxes : List ColorBox}
    (h : bestFrom i best boxes = none) : best = none ∧ ∀ b ∈ boxes, b.score = 0 := by
  induction boxes generalizing i best with
  | nil => exact ⟨h, fun _ hb => absurd hb List.not_mem_nil⟩
  | cons box rest ih =>
      rw [bestFrom.eq_def] at h
      rcases ih h with ⟨hbest, hrest⟩
      cases best with
      | none =>
          -- A box with a score would have been the best so far.
          simp only [decide_eq_true_eq] at hbest
          split at hbest
          · cases hbest
          · next hscore =>
            refine ⟨rfl, ?_⟩
            intro b hb
            rcases List.mem_cons.1 hb with rfl | hmem
            · exact Nat.eq_zero_of_not_pos hscore
            · exact hrest b hmem
      | some top =>
          simp only [decide_eq_true_eq] at hbest
          split at hbest
          · cases hbest
          · cases hbest

theorem exists_of_best? {i : Nat} {boxes : List ColorBox} (h : best? boxes = some i) :
    ∃ b, boxes[i]? = some b ∧ 2 ≤ b.members.length := by
  rw [best?, Option.map_eq_some_iff] at h
  obtain ⟨⟨j, t⟩, hbest, rfl⟩ := h
  rcases bestFrom_eq_some hbest with hnone | ⟨-, b, hb, hscore⟩
  · cases hnone
  · refine ⟨b, hb, ?_⟩
    rw [score] at hscore
    split at hscore
    · omega
    · omega

theorem score_eq_zero_of_best? {boxes : List ColorBox} (h : best? boxes = none) :
    ∀ b ∈ boxes, b.score = 0 := by
  rw [best?, Option.map_eq_none_iff] at h
  exact (bestFrom_eq_none h).2

end ColorBox

/-! ## The entry to move -/

namespace Clustering

variable {sizes : Array Nat} {i j : Nat} {best : Option (Nat × Float32)}
  {placements : List Placement}

/-- The donor of an entry is one that was passed, from a cluster that has another entry. -/
theorem donorFrom_eq_some (h : donorFrom sizes i best placements = some j) :
    best.map (·.1) = some j ∨ FoundFrom (fun p => 2 ≤ sizes.getD p.cluster 0) i placements j := by
  induction placements generalizing i best with
  | nil => exact .inl h
  | cons p rest ih =>
      rw [donorFrom.eq_def] at h
      dsimp only at h
      split at h
      · exact (ih h).imp_right FoundFrom.tail
      · next hfree =>
        have hspare : 2 ≤ sizes.getD p.cluster 0 := by
          simp only [Bool.or_eq_true, decide_eq_true_eq, not_or] at hfree
          omega
        have hself : some i = some j →
            FoundFrom (fun p => 2 ≤ sizes.getD p.cluster 0) i (p :: rest) j := by
          rintro ⟨⟩
          exact foundFrom_head hspare
        -- Which of two errors is larger decides only whose position is kept.
        cases best with
        | none => exact .inr ((ih h).elim hself FoundFrom.tail)
        | some top =>
            rcases ih h with hbest | hrest
            · split at hbest
              · exact .inr (hself hbest)
              · exact .inl hbest
            · exact .inr hrest.tail

/-- Once there is a donor, whatever errors come later, there is one in the end. -/
theorem donorFrom_some_ne_none (top : Nat × Float32) :
    donorFrom sizes i (some top) placements ≠ none := by
  induction placements generalizing i top with
  | nil => simp [donorFrom]
  | cons p rest ih =>
      rw [donorFrom]
      split
      · exact ih top
      · split
        · exact ih (i, p.error)
        · exact ih top

/-- There is no donor only where every entry was moved or is the last of its cluster. -/
theorem donorFrom_eq_none (h : donorFrom sizes i none placements = none) :
    ∀ p ∈ placements, p.moved = true ∨ sizes.getD p.cluster 0 < 2 := by
  induction placements generalizing i with
  | nil => exact fun _ hp => absurd hp List.not_mem_nil
  | cons p rest ih =>
      rw [donorFrom] at h
      split at h
      · next hbarred =>
        intro q hq
        rcases List.mem_cons.1 hq with rfl | hmem
        · simpa using hbarred
        · exact ih h q hmem
      · exact absurd h (donorFrom_some_ne_none _)

end Clustering

/-! ## The nearest center -/

/-- A search answers with the position it started from or one it passed. -/
theorem Nearest.scan_fst_lt {α : Type} (dist : α → Float32) {n best i : Nat} (least : Float32)
    {points : List (Option α)} (hbest : best < n) (hi : i + points.length ≤ n) :
    (Nearest.scan dist best least i points).1 < n := by
  induction points generalizing best least i with
  | nil => exact hbest
  | cons point rest ih =>
      rw [List.length_cons] at hi
      have hrest : i + 1 + rest.length ≤ n := by omega
      cases point with
      | none => exact ih least hbest hrest
      | some p =>
          rw [Nearest.scan]
          -- How the distances compare does not matter: either position is one that was passed.
          split
          · exact ih (dist p) (by omega) hrest
          · exact ih least hbest hrest

end PaletteBitmap

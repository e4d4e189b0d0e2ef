import PaletteBitmap.Proofs.Search

/-!
# Refined clusterings

What the rounds of `Clustering.refine` keep, whatever the distances are, numbers or not: there
is one cluster for each entry, and it is one of those counted.  Each round keeps this because
the nearest center is one of the centers and an empty cluster is filled under its own number;
the rounds together keep it by induction on their number.
-/

namespace PaletteBitmap

/-- Changing one element keeps what holds of all, if it holds of the new one. -/
theorem forall_mem_modify {α : Type} {P : α → Prop} {xs : Array α} {i : Nat} {f : α → α}
    (hf : ∀ x, xs[i]? = some x → P (f x)) (h : ∀ x ∈ xs, P x) : ∀ y ∈ xs.modify i f, P y := by
  intro y hy
  obtain ⟨j, hj, rfl⟩ := Array.mem_iff_getElem.1 hy
  rw [Array.getElem_modify]
  split
  · next hij =>
    subst hij
    exact hf _ (Array.getElem?_eq_getElem _)
  · exact h _ (Array.getElem_mem _)

namespace Clustering

variable {dist : Perceptual → Perceptual → Float32} {entries : List HistogramEntry}
  {clusters : Nat}

/-! ## Sums and centers -/

@[simp]
theorem size_sums (entries : List HistogramEntry) (assignment : List Nat) (clusters : Nat) :
    (sums entries assignment clusters).size = clusters := by
  rw [sums]
  refine List.foldlRecOn (motive := fun s : Array ColorSum => s.size = clusters) _ _ ?_ ?_
  · exact Array.size_replicate
  · rintro s hs ⟨e, k⟩ -
    rw [Array.size_modify, hs]

@[simp]
theorem length_centers (sums : Array ColorSum) : (centers sums).length = sums.size := by
  rw [centers, List.length_map, Array.length_toList]

/-! ## Filling empty clusters -/

@[simp]
theorem size_fill (clusters : Nat) (placements : Array Placement) (cluster : Nat) :
    (fill clusters placements cluster).size = placements.size := by
  simp only [fill]
  split
  · rfl
  · split
    · rfl
    · exact Array.size_modify

@[simp]
theorem size_fillAll (clusters : Nat) (placements : Array Placement) :
    (fillAll clusters placements).size = placements.size := by
  rw [fillAll]
  refine List.foldlRecOn (motive := fun ps : Array Placement => ps.size = placements.size) _ _ ?_ ?_
  · rfl
  · intro ps hps cluster _
    rw [size_fill, hps]

/-- All placements are in clusters with numbers below `clusters`. -/
def Placed (clusters : Nat) (placements : Array Placement) : Prop :=
  ∀ p ∈ placements, p.cluster < clusters

theorem Placed.fill {placements : Array Placement} (h : Placed clusters placements)
    {cluster : Nat} (hc : cluster < clusters) :
    Placed clusters (fill clusters placements cluster) := by
  simp only [Clustering.fill]
  split
  · exact h
  · split
    · exact h
    · -- The entry moved is in the cluster being filled, the others are where they were.
      exact forall_mem_modify (fun _ _ => hc) h

theorem Placed.fillAll {placements : Array Placement} (h : Placed clusters placements) :
    Placed clusters (fillAll clusters placements) := by
  rw [Clustering.fillAll]
  apply List.foldlRecOn (motive := Placed clusters)
  · exact h
  · intro ps hps cluster hcluster
    exact hps.fill (List.mem_range.1 hcluster)

theorem cluster_place_lt (dist : Perceptual → Perceptual → Float32)
    {centers : List (Option Perceptual)} (h : 0 < centers.length) (entry : HistogramEntry)
    (point : Perceptual) :
    (place dist centers entry point).cluster < centers.length :=
  Nearest.scan_fst_lt _ Nearest.infinity h (Nat.le_of_eq (Nat.zero_add _))

theorem placed_place (dist : Perceptual → Perceptual → Float32) (entries : List HistogramEntry)
    (points : List Perceptual) {centers : List (Option Perceptual)} (hclusters : 0 < clusters)
    (h : centers.length = clusters) :
    Placed clusters (List.zipWith (place dist centers) entries points).toArray := by
  intro q hq
  rw [List.mem_toArray, ← List.map_uncurry_zip_eq_zipWith] at hq
  obtain ⟨⟨e, point⟩, -, rfl⟩ := List.mem_map.1 hq
  subst h
  exact cluster_place_lt dist hclusters e point

/-! ## Rounds -/

theorem length_round {points : List Perceptual} (h : points.length = entries.length)
    (assignment : List Nat) :
    (round dist entries points clusters assignment).length = entries.length := by
  simp [round, h]

/-- After a round every entry is in a cluster that is counted. -/
theorem lt_of_mem_round {points : List Perceptual} {assignment : List Nat} {k : Nat}
    (hclusters : 0 < clusters) (hk : k ∈ round dist entries points clusters assignment) :
    k < clusters := by
  rw [round] at hk
  simp only [Array.toList_map, List.mem_map, Array.mem_toList_iff] at hk
  obtain ⟨p, hp, rfl⟩ := hk
  -- Filling keeps what placing each entry with its nearest center has brought about.
  refine Placed.fillAll (placed_place dist entries points hclusters ?_) p hp
  rw [length_centers, size_sums]

theorem settle_induction {step : List Nat → List Nat} {P : List Nat → Prop}
    (hstep : ∀ assignment, P assignment → P (step assignment)) (n : Nat)
    {assignment : List Nat} (h : P assignment) : P (settle step n assignment) := by
  induction n generalizing assignment with
  | zero => exact h
  | succ n ih =>
      rw [settle]
      split
      · exact h
      · exact ih (hstep assignment h)

/-! ## Refinement -/

variable {assignment : List Nat} (iterations : Nat)

theorem length_refine (h : assignment.length = entries.length) :
    (refine dist entries assignment clusters iterations).length = entries.length := by
  rw [refine]
  split
  · exact h
  · apply settle_induction (P := fun a => a.length = entries.length)
    · intro a _
      exact length_round (List.length_map _) a
    · exact h

theorem lt_of_mem_refine (h : ∀ k ∈ assignment, k < clusters) :
    ∀ k ∈ refine dist entries assignment clusters iterations, k < clusters := by
  rw [refine]
  split
  · exact h
  · next hclusters =>
    apply settle_induction (P := fun a => ∀ k ∈ a, k < clusters)
    · intro a _ k hk
      exact lt_of_mem_round (by omega) hk
    · exact h

end Clustering

end PaletteBitmap

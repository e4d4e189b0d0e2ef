import Mathlib
import PaletteBitmap.Proofs.Partition
import PaletteBitmap.Proofs.Refinement

/-!
# Empty clusters are filled again

When every entry goes to the nearest center, any number of clusters can be left without one.  They
are filled one after another, and each takes an entry from a cluster that has two.

What has to be shown is that there always is such a cluster.  An entry that was moved is alone in its
cluster, for that cluster was empty and nothing else is put there (`Filled.alone`).  So if no entry
can be spared, no two entries share a cluster, and the empty one is left over: there are more clusters
than entries.  With at most as many clusters as entries that cannot be.

How far an entry is from its center only decides which of the entries is taken.  Nothing here depends
on it, nor on whether it is a number.
-/

namespace PaletteBitmap

namespace Clustering

/-! ## Sizes -/

/-- The clusters that entries were put in. -/
def clustersOf (placements : Array Placement) : List Nat :=
  placements.toList.map (·.cluster)

variable {placements : Array Placement} {clusters k c : Nat}

/-- The size of a cluster is how often an entry was put in it. -/
theorem getD_sizes (placements : Array Placement) (hk : k < clusters) :
    (sizes placements clusters).getD k 0 = (clustersOf placements).count k := by
  have hsize : (sizes placements clusters)[k]? = some ((clustersOf placements).count k) := by
    rw [sizes, ← Array.foldl_toList, clustersOf]
    -- Each entry adds one to the size of its own cluster and to the count of that number.
    induction placements.toList using List.reverseRecOn with
    | nil => simp [hk]
    | append_singleton before p ih =>
        rw [List.foldl_append, List.foldl_cons, List.foldl_nil, Array.getElem?_modify, ih,
          List.map_append, List.count_append]
        by_cases hp : p.cluster = k
        · simp [hp]
        · simp [hp]
  rw [Array.getD_eq_getD_getElem?, hsize, Option.getD_some]

theorem lt_of_mem_clustersOf (h : Placed clusters placements) (hk : k ∈ clustersOf placements) :
    k < clusters := by
  rcases List.mem_map.1 hk with ⟨p, hp, rfl⟩
  exact h p (Array.mem_toList_iff.1 hp)

/-! ## Moves -/

/-- Puts the entry at a position in another cluster. -/
def move (placements : Array Placement) (i c : Nat) : Array Placement :=
  placements.modify i fun p => { p with cluster := c, moved := true }

/-- A move takes one from the size of a cluster and adds one to that of another. -/
theorem count_move {i : Nat} {p : Placement} (hp : placements[i]? = some p) (c k : Nat) :
    (clustersOf (move placements i c)).count k + (if p.cluster = k then 1 else 0) =
      (clustersOf placements).count k + (if c = k then 1 else 0) := by
  rcases Array.getElem?_eq_some_iff.1 hp with ⟨hi, rfl⟩
  have hbefore : placements.toList = placements.toList.take i ++
      placements[i] :: placements.toList.drop (i + 1) := by
    rw [← Array.getElem_toList, List.getElem_cons_drop, List.take_append_drop]
  have hafter : (move placements i c).toList = placements.toList.take i ++
      { placements[i] with cluster := c, moved := true } :: placements.toList.drop (i + 1) := by
    rw [move, Array.toList_modify, List.modify_eq_take_cons_drop hi, Array.getElem_toList]
  rw [clustersOf, clustersOf, hafter]
  conv_rhs => rw [hbefore]
  simp only [List.map_append, List.map_cons, List.count_append, List.count_cons, beq_iff_eq]
  omega

/-- A move from a cluster that has two entries empties none. -/
theorem mem_clustersOf_move {i : Nat} {p : Placement} (hp : placements[i]? = some p)
    (hspare : 2 ≤ (clustersOf placements).count p.cluster)
    (hk : k = c ∨ k ∈ clustersOf placements) : k ∈ clustersOf (move placements i c) := by
  have hcount := count_move hp c k
  rw [← List.count_pos_iff]
  by_cases hfrom : p.cluster = k
  · rw [if_pos hfrom] at hcount
    rw [hfrom] at hspare
    omega
  · rw [if_neg hfrom] at hcount
    rcases hk with rfl | hheld
    · rw [if_pos rfl] at hcount
      omega
    · have hpos := List.count_pos_iff.2 hheld
      omega

/-! ## Filling one cluster after another -/

/-- The state of the placements when the clusters below `below` are filled.  An entry that was moved
is the only one of its cluster. -/
structure Filled (clusters below : Nat) (placements : Array Placement) : Prop where
  size_le : clusters ≤ placements.size
  placed : Placed clusters placements
  alone : ∀ p ∈ placements, p.moved = true → (clustersOf placements).count p.cluster = 1
  held : ∀ k < below, k ∈ clustersOf placements

/-- If no entry can be spared, no two entries share a cluster. -/
theorem Filled.nodup_of_no_donor {below : Nat} (h : Filled clusters below placements)
    (hnone : donorFrom (sizes placements clusters) 0 none placements.toList = none) :
    (clustersOf placements).Nodup := by
  rw [List.nodup_iff_count_le_one]
  intro k
  by_cases hk : k ∈ clustersOf placements
  · rcases List.mem_map.1 hk with ⟨p, hp, rfl⟩
    have hmem := Array.mem_toList_iff.1 hp
    rcases donorFrom_eq_none hnone p hp with hmoved | hlast
    · exact Nat.le_of_eq (h.alone p hmem hmoved)
    · rw [getD_sizes placements (h.placed p hmem)] at hlast
      exact Nat.le_of_lt_succ hlast
  · rw [List.count_eq_zero.2 hk]
    exact Nat.zero_le 1

/-- There is an entry to spare for an empty cluster. -/
theorem Filled.exists_donor {below : Nat} (h : Filled clusters below placements) (hc : c < clusters)
    (hempty : c ∉ clustersOf placements) :
    ∃ i p, donorFrom (sizes placements clusters) 0 none placements.toList = some i ∧
      placements[i]? = some p ∧ 2 ≤ (clustersOf placements).count p.cluster := by
  cases hdonor : donorFrom (sizes placements clusters) 0 none placements.toList with
  | none =>
      -- The empty cluster and those of the entries would be different numbers below `clusters`.
      have hnodup : (c :: clustersOf placements).Nodup :=
        List.nodup_cons.2 ⟨hempty, h.nodup_of_no_donor hdonor⟩
      have hsub : c :: clustersOf placements ⊆ List.range clusters := by
        intro k hk
        rcases List.mem_cons.1 hk with rfl | hmem
        · exact List.mem_range.2 hc
        · exact List.mem_range.2 (lt_of_mem_clustersOf h.placed hmem)
      have hle := hnodup.length_le_of_subset hsub
      rw [List.length_cons, List.length_range, clustersOf, List.length_map,
        Array.length_toList] at hle
      exact absurd (Nat.le_trans hle h.size_le) (Nat.not_succ_le_self _)
  | some i =>
      rcases donorFrom_eq_some hdonor with hstart | ⟨-, p, hp, hspare⟩
      · cases hstart
      · rw [Nat.sub_zero, Array.getElem?_toList] at hp
        rw [getD_sizes placements (h.placed p (Array.mem_of_getElem? hp))] at hspare
        exact ⟨i, p, rfl, hp, hspare⟩

/-- A cluster is left as it is if it has an entry, and is given one to spare if not. -/
theorem Filled.fill_cases {below : Nat} (h : Filled clusters below placements) (hc : c < clusters) :
    c ∈ clustersOf placements ∧ fill clusters placements c = placements ∨
      c ∉ clustersOf placements ∧ ∃ i p, placements[i]? = some p ∧
        2 ≤ (clustersOf placements).count p.cluster ∧
        fill clusters placements c = move placements i c := by
  by_cases hheld : c ∈ clustersOf placements
  · refine .inl ⟨hheld, ?_⟩
    simp only [fill]
    rw [getD_sizes placements hc, if_pos (List.count_pos_iff.2 hheld)]
  · rcases h.exists_donor hc hheld with ⟨i, p, hdonor, hp, hspare⟩
    refine .inr ⟨hheld, i, p, hp, hspare, ?_⟩
    simp only [fill]
    rw [getD_sizes placements hc, if_neg (mt List.count_pos_iff.1 hheld), hdonor, move]

/-- An entry that fills an empty cluster is alone there, and those moved before it still are. -/
theorem Filled.move {i : Nat} {p : Placement} (h : Filled clusters c placements) (hc : c < clusters)
    (hempty : c ∉ clustersOf placements) (hp : placements[i]? = some p)
    (hspare : 2 ≤ (clustersOf placements).count p.cluster) :
    Filled clusters (c + 1) (move placements i c) where
  size_le := by
    rw [Clustering.move, Array.size_modify]
    exact h.size_le
  placed := forall_mem_modify (fun _ _ => hc) h.placed
  alone := by
    have hcount := count_move hp c
    have hzero : (clustersOf placements).count c = 0 := List.count_eq_zero.2 hempty
    apply forall_mem_modify
    · intro _ _ _
      have hother : p.cluster ≠ c := by
        intro heq
        rw [heq] at hspare
        omega
      simpa [hother, hzero] using hcount c
    · intro q hq hmoved
      -- A cluster of size one is neither the one that was empty nor the one that could spare.
      have hone := h.alone q hq hmoved
      have hfrom : p.cluster ≠ q.cluster := by
        intro heq
        rw [heq] at hspare
        omega
      have hto : c ≠ q.cluster := by
        rintro rfl
        omega
      simpa [hfrom, hto, hone] using hcount q.cluster
  held := by
    intro k hk
    rcases Nat.lt_succ_iff_lt_or_eq.1 hk with hlt | heq
    · exact mem_clustersOf_move hp hspare (.inr (h.held k hlt))
    · exact mem_clustersOf_move hp hspare (.inl heq)

theorem Filled.fill (h : Filled clusters c placements) (hc : c < clusters) :
    Filled clusters (c + 1) (fill clusters placements c) := by
  rcases h.fill_cases hc with ⟨hheld, hsame⟩ | ⟨hempty, i, p, hp, hspare, hmove⟩
  · rw [hsame]
    refine ⟨h.size_le, h.placed, h.alone, ?_⟩
    intro k hk
    rcases Nat.lt_succ_iff_lt_or_eq.1 hk with hlt | rfl
    · exact h.held k hlt
    · exact hheld
  · rw [hmove]
    exact h.move hc hempty hp hspare

theorem Filled.fillAll (h : Filled clusters 0 placements) :
    Filled clusters clusters (fillAll clusters placements) := by
  -- The clusters are filled in order, and what is filled stays so.
  have hrun : ∀ below ≤ clusters,
      Filled clusters below ((List.range below).foldl (Clustering.fill clusters) placements) := by
    intro below
    induction below with
    | zero => exact fun _ => h
    | succ below ih =>
        intro hle
        rw [List.range_succ, List.foldl_append]
        exact (ih (Nat.le_of_succ_le hle)).fill hle
  exact hrun clusters (Nat.le_refl clusters)

/-! ## Rounds -/

variable {dist : Perceptual → Perceptual → Float32} {entries : List HistogramEntry}

/-- Entries that were just put with their nearest centers, none of them moved. -/
theorem filled_place (dist : Perceptual → Perceptual → Float32) {points : List Perceptual}
    (hpoints : points.length = entries.length) {centers : List (Option Perceptual)}
    (hcenters : centers.length = clusters) (hpos : 0 < clusters)
    (hle : clusters ≤ entries.length) :
    Filled clusters 0 (List.zipWith (place dist centers) entries points).toArray where
  size_le := by
    simpa [hpoints] using hle
  placed := placed_place dist entries points hpos hcenters
  alone := by
    intro p hp hmoved
    rw [List.mem_toArray, ← List.map_uncurry_zip_eq_zipWith] at hp
    rcases List.mem_map.1 hp with ⟨⟨e, point⟩, -, rfl⟩
    cases hmoved
  held := fun _ hk => absurd hk (Nat.not_lt_zero _)

/-- Whatever the assignment before it, a round leaves no cluster empty. -/
theorem full_round {points : List Perceptual} (hpoints : points.length = entries.length)
    (hpos : 0 < clusters) (hle : clusters ≤ entries.length) (assignment : List Nat) :
    Full entries.length clusters (round dist entries points clusters assignment) where
  length_eq := length_round hpoints assignment
  lt_clusters := fun _ hk => lt_of_mem_round hpos hk
  held := by
    have hcenters : (centers (sums entries assignment clusters)).length = clusters := by
      rw [length_centers, size_sums]
    have hfilled := (filled_place dist hpoints hcenters hpos hle).fillAll
    intro k hk
    simpa [round, clustersOf] using hfilled.held k hk

/-! ## Main statement -/

variable {assignment : List Nat}

/-- Refinement loses no cluster.  If every cluster has an entry at the start, then after any number
of rounds every entry has one of the clusters and every cluster still has an entry, whatever the
distances are. -/
theorem refine_full (dist : Perceptual → Perceptual → Float32) (iterations : Nat)
    (h : Full entries.length clusters assignment) :
    Full entries.length clusters (refine dist entries assignment clusters iterations) := by
  rw [refine]
  split
  · exact h
  · next hclusters =>
    apply settle_induction (P := Full entries.length clusters)
    · intro assignment _
      exact full_round (List.length_map _) (by omega) h.clusters_le assignment
    · exact h

/-- Three grays, the one in the middle by itself.  The other two have its gray for their mean, so
all three are as near to one center as to the other. -/
def middling : List HistogramEntry :=
  [100, 150, 200].map fun v => ⟨Rgba.solid v v v, 1⟩

/-- Neither cluster is lost in a tie, nor with distances that are no numbers at all. -/
theorem middling_full : Full middling.length 2 [0, 1, 0] ∧
    Full middling.length 2 (refine Perceptual.distance middling [0, 1, 0] 2 1) ∧
    Full middling.length 2 (refine (fun _ _ => 0 / 0) middling [0, 1, 0] 2 4) := by
  have hstart : Full middling.length 2 [0, 1, 0] := ⟨rfl, by decide, by decide⟩
  exact ⟨hstart, refine_full Perceptual.distance 1 hstart, refine_full (fun _ _ => 0 / 0) 4 hstart⟩

end Clustering

end PaletteBitmap

import Mathlib
import PaletteBitmap.Proofs.GuardedCut

/-!
# A guarded run of the quantizer

The rounds of refinement and the drawing of the clusters with guards, and with them the whole of
`quantizeWith`.  The main result, `Guarded.quantize_eq_some`, is that no guard is ever broken: for
fewer than 2³² pixels the guarded run has a result, and it is the one of `quantizeWith`.
-/

namespace PaletteBitmap

namespace Guarded

variable {entries : List HistogramEntry}

/-! ## Rounds -/

def centers (sums : Array ColorSum) : Option (List (Option Perceptual)) :=
  sums.toList.mapM fun s =>
    if 0 < s.count then do return some (← point (← mean s)) else some none

def sizes (placements : Array Clustering.Placement) (clusters : Nat) : Option (Array Nat) :=
  placements.toList.foldlM (fun sizes p => change sizes p.cluster fun n => word 64 (n + 1))
    (Array.replicate clusters 0)

def fill (clusters : Nat) (placements : Array Clustering.Placement) (cluster : Nat) :
    Option (Array Clustering.Placement) := do
  let sizes ← sizes placements clusters
  let size ← sizes[cluster]?
  if 0 < size then return placements
  else
    let _ ← placements.toList.mapM fun p => sizes[p.cluster]?
    match Clustering.donorFrom sizes 0 none placements.toList with
    | none => return placements
    | some i =>
      -- The cluster that the entry comes from gets smaller by one.
      let p ← placements[i]?
      let size ← sizes[p.cluster]?
      let _ ← difference size 1
      change placements i fun p => some { p with cluster := cluster, moved := true }

def round (dist : Perceptual → Perceptual → Float32) (entries : List HistogramEntry)
    (points : List Perceptual) (clusters : Nat) (assignment : List Nat) : Option (List Nat) := do
  let sums ← sums entries assignment clusters
  let centers ← centers sums
  -- Points and entries are looked up at the same positions.
  if points.length ≠ entries.length then none
  else
    let placements := List.zipWith (Clustering.place dist centers) entries points
    let filled ← (List.range clusters).foldlM (fill clusters) placements.toArray
    return (filled.map (·.cluster)).toList

def settle (step : List Nat → Option (List Nat)) : Nat → List Nat → Option (List Nat)
  | 0, assignment => some assignment
  | n + 1, assignment => do
    let next ← step assignment
    if next = assignment then return assignment else settle step n next

def refine (dist : Perceptual → Perceptual → Float32) (entries : List HistogramEntry)
    (assignment : List Nat) (clusters iterations : Nat) : Option (List Nat) :=
  if clusters < 2 then some assignment
  else do
    let points ← entries.mapM fun e => point e.color
    settle (round dist entries points clusters) iterations assignment

theorem centers_eq_some {sums : Array ColorSum}
    (h : ∀ s ∈ sums, Bounded s ∧ s.count < 2 ^ 32) :
    centers sums = some (Clustering.centers sums) := by
  apply FirstUse.mapM_eq_some_map
  intro s hs
  obtain ⟨hbounded, hcount⟩ := h s (Array.mem_toList_iff.1 hs)
  split
  · simp only [mean_eq_some hbounded hcount, Option.bind_eq_bind, Option.bind_some, point_eq_some]
    rfl
  · rfl

theorem sizes_eq_some {clusters : Nat} {placements : Array Clustering.Placement}
    (h : Clustering.Placed clusters placements) (hlen : placements.size < 2 ^ 32) :
    sizes placements clusters = some (Clustering.sizes placements clusters) ∧
      (Clustering.sizes placements clusters).size = clusters := by
  have hrun : sizes placements clusters = some (placements.toList.foldl
      (fun sizes p => sizes.modify p.cluster (· + 1)) (Array.replicate clusters 0)) ∧
      (placements.toList.foldl (fun sizes p => sizes.modify p.cluster (· + 1))
        (Array.replicate clusters 0)).size = clusters ∧
      ∀ n ∈ placements.toList.foldl (fun sizes p => sizes.modify p.cluster (· + 1))
        (Array.replicate clusters 0), n ≤ placements.toList.length := by
    refine foldlM_eq_some (fun (before : List Clustering.Placement) (sizes : Array Nat) =>
      sizes.size = clusters ∧ ∀ n ∈ sizes, n ≤ before.length)
      ⟨Array.size_replicate, fun n hn => ?_⟩ ?_
    · rw [(Array.mem_replicate.1 hn).2]
      exact Nat.zero_le _
    · rintro before p after sizes hplacements ⟨hsize, hsizes⟩
      have hlt : p.cluster < sizes.size :=
        hsize ▸ h p (Array.mem_toList_iff.1 (by simp [hplacements]))
      have hbefore : before.length + 1 ≤ placements.size := by
        rw [← Array.length_toList, hplacements, List.length_append, List.length_cons]
        omega
      have hold := hsizes _ (Array.getElem_mem hlt)
      have hget := Array.getElem?_eq_getElem hlt
      refine ⟨change_eq_modify hget (word_eq_some (by omega)),
        by rw [Array.size_modify, hsize], ?_⟩
      rw [List.length_append, List.length_singleton]
      apply forall_mem_modify
      · intro n hn
        rw [hget] at hn
        cases hn
        exact Nat.succ_le_succ hold
      · intro n hn
        exact Nat.le_succ_of_le (hsizes n hn)
  rw [Array.foldl_toList] at hrun
  exact ⟨hrun.1, hrun.2.1⟩

/-- What is moved comes from a cluster with an entry to spare. -/
theorem fill_eq_some {clusters cluster : Nat} {placements : Array Clustering.Placement}
    (h : Clustering.Placed clusters placements) (hlen : placements.size < 2 ^ 32)
    (hcluster : cluster < clusters) :
    fill clusters placements cluster = some (Clustering.fill clusters placements cluster) := by
  obtain ⟨hsizes, hsize⟩ := sizes_eq_some h hlen
  have hget : ∀ c < clusters, (Clustering.sizes placements clusters)[c]? =
      some ((Clustering.sizes placements clusters).getD c 0) := by
    intro c hc
    have hlt : c < (Clustering.sizes placements clusters).size := by rwa [hsize]
    rw [Array.getD_eq_getD_getElem?, Array.getElem?_eq_getElem hlt]
    rfl
  have hplaced : placements.toList.mapM (fun p => (Clustering.sizes placements clusters)[p.cluster]?)
      = some _ :=
    FirstUse.mapM_eq_some_map fun p hp => hget p.cluster (h p (Array.mem_toList_iff.1 hp))
  simp only [fill, Clustering.fill, hsizes, Option.bind_eq_bind, Option.bind_some,
    hget cluster hcluster, hplaced]
  split
  · rfl
  · cases hdonor : Clustering.donorFrom (Clustering.sizes placements clusters) 0 none
      placements.toList with
    | none => rfl
    | some i =>
        rcases Clustering.donorFrom_eq_some hdonor with hnone | ⟨-, p, hp, hspare⟩
        · cases hnone
        · rw [Nat.sub_zero, Array.getElem?_toList] at hp
          have hmem : p.cluster < clusters := h p (Array.mem_of_getElem? hp)
          simp only [hp, Option.bind_some, hget p.cluster hmem,
            difference_eq_some (show 1 ≤ _ by exact Nat.le_of_succ_le hspare)]
          exact change_eq_modify hp rfl

theorem fillAll_eq_some {clusters : Nat} {placements : Array Clustering.Placement}
    (h : Clustering.Placed clusters placements) (hlen : placements.size < 2 ^ 32) :
    (List.range clusters).foldlM (fill clusters) placements =
      some (Clustering.fillAll clusters placements) := by
  refine (foldlM_eq_some (fun _ ps => Clustering.Placed clusters ps ∧ ps.size < 2 ^ 32)
    ⟨h, hlen⟩ ?_).1
  -- A cluster that is filled is one of those counted, and no entry is added or lost.
  rintro before cluster after ps hrange ⟨hplaced, hsize⟩
  have hcluster : cluster < clusters := List.mem_range.1 (by simp [hrange])
  refine ⟨fill_eq_some hplaced hsize hcluster, hplaced.fill hcluster, ?_⟩
  rwa [Clustering.size_fill]

variable {dist : Perceptual → Perceptual → Float32} {points : List Perceptual}
  {assignment : List Nat} {clusters : Nat}

theorem round_eq_some (h : Fits entries assignment clusters) (hclusters : 0 < clusters)
    (hpoints : points.length = entries.length) :
    round dist entries points clusters assignment =
        some (Clustering.round dist entries points clusters assignment) ∧
      Fits entries (Clustering.round dist entries points clusters assignment) clusters := by
  obtain ⟨hsums, hbounded⟩ := sums_eq_some h
  have hkept : Fits entries (Clustering.round dist entries points clusters assignment) clusters :=
    ⟨h.length_lt, h.population_lt, Clustering.length_round hpoints assignment,
      fun _ hk => Clustering.lt_of_mem_round hclusters hk⟩
  refine ⟨?_, hkept⟩
  simp only [round, hsums, centers_eq_some hbounded, Option.bind_eq_bind, Option.bind_some,
    ne_eq, hpoints, not_true_eq_false, if_false]
  -- Each entry is placed with one of the centers, so filling starts within the clusters.
  rw [fillAll_eq_some]
  · rfl
  · apply Clustering.placed_place dist entries points hclusters
    rw [Clustering.length_centers, Clustering.size_sums]
  · rw [List.size_toArray, List.length_zipWith, hpoints, Nat.min_self]
    exact h.length_lt

/-- Steps that keep what their guards need are repeated without breaking one. -/
theorem settle_eq_some {step : List Nat → List Nat} {guarded : List Nat → Option (List Nat)}
    {P : List Nat → Prop} (hstep : ∀ a, P a → guarded a = some (step a) ∧ P (step a)) (n : Nat)
    {a : List Nat} (h : P a) : settle guarded n a = some (Clustering.settle step n a) := by
  induction n generalizing a with
  | zero => rfl
  | succ n ih =>
      obtain ⟨hguarded, hkept⟩ := hstep a h
      rw [settle, Clustering.settle, hguarded]
      simp only [Option.bind_eq_bind, Option.bind_some]
      split
      · rfl
      · exact ih hkept

theorem refine_eq_some (h : Fits entries assignment clusters) (iterations : Nat) :
    refine dist entries assignment clusters iterations =
      some (Clustering.refine dist entries assignment clusters iterations) := by
  rw [refine, Clustering.refine]
  split
  · rfl
  · next hclusters =>
    have hpoints : entries.mapM (fun e => point e.color) =
        some (entries.map fun e => Perceptual.ofRgba e.color) :=
      FirstUse.mapM_eq_some_map fun e _ => point_eq_some e.color
    rw [hpoints]
    -- What every round keeps is that the assignment fits the entries and the clusters.
    apply settle_eq_some (P := fun a => Fits entries a clusters)
    · intro a ha
      exact round_eq_some ha (by omega) (List.length_map _)
    · exact h

/-! ## Drawing -/

def cluster (dist : Perceptual → Perceptual → Float32) (entries : List HistogramEntry)
    (options : QuantizeOptions) : Option Clustering :=
  if options.count = 0 ∨ entries.length ≤ options.count then
    some (Clustering.identity entries.length)
  else do
    let cut ← medianCut entries options.count
    return ⟨← refine dist entries cut.assignment cut.clusters options.iterations, cut.clusters⟩

def drawn (entries : List HistogramEntry) (k : Clustering) : Option (List Rgba) := do
  let sums ← sums entries k.assignment k.clusters
  k.assignment.mapM fun c => do mean (← sums[c]?)

def draw (picture : Histogram) (k : Clustering) : Option (Except EncodeError Quantized) := do
  let table ← histogram (← drawn picture.entries.toList k)
  let numbers ← table.pixelEntries.toList.mapM (word 8)
  match Palette.ofList table.colors with
  | .error e => return .error (.palette e)
  | .ok palette =>
    let indices ← picture.pixelEntries.toList.mapM fun e => do
      return UInt8.ofNat (← numbers[e]?)
    return .ok ⟨palette, indices⟩

theorem cluster_eq_some (hlength : entries.length < 2 ^ 32) (hpopulation : population entries < 2 ^ 32)
    (hne : entries ≠ []) (options : QuantizeOptions) :
    cluster dist entries options = some (Quantize.cluster dist entries options) := by
  rw [cluster, Quantize.cluster]
  split
  · rfl
  · next hmany =>
    -- The cut gives every entry a cluster, which is all that the rounds start from.
    have hcount : 0 < options.count := by omega
    have hfits : Fits entries (Clustering.medianCut entries options.count).assignment
        (Clustering.medianCut entries options.count).clusters :=
      ⟨hlength, hpopulation, Clustering.length_assignment_medianCut hne hcount,
        fun _ hk => Clustering.lt_clusters_medianCut hne hcount hk⟩
    simp only [Option.bind_eq_bind, medianCut_eq_some hpopulation, Option.bind_some,
      refine_eq_some hfits, Option.pure_def]

theorem drawn_eq_some {k : Clustering} (h : Fits entries k.assignment k.clusters) :
    drawn entries k = some (Quantize.drawn entries k) := by
  obtain ⟨hsums, hbounded⟩ := sums_eq_some h
  rw [drawn, Quantize.drawn, hsums]
  apply FirstUse.mapM_eq_some_map
  intro c hc
  have hlt : c < (Clustering.sums entries k.assignment k.clusters).size := by
    rw [Clustering.size_sums]
    exact h.lt_clusters c hc
  obtain ⟨hsum, hcount⟩ := hbounded _ (Array.getElem_mem hlt)
  rw [Array.getElem?_eq_getElem hlt, Array.getD_eq_getD_getElem?, Array.getElem?_map,
    Array.getElem?_eq_getElem hlt]
  exact mean_eq_some hsum hcount

variable {pixels : List Rgba} {k : Clustering}

/-- All pixels are counted, each of them once. -/
theorem population_ofPixels (pixels : List Rgba) :
    population (Histogram.ofPixels pixels).entries.toList = pixels.length := by
  rw [population_eq_sum, Histogram.entries_ofPixels, List.map_map]
  exact FirstUse.sum_count_eraseDups pixels

theorem fits_ofPixels (h : pixels.length < 2 ^ 32)
    (hk : Quantize.Covers k pixels.eraseDups.length) :
    Fits (Histogram.ofPixels pixels).entries.toList k.assignment k.clusters := by
  have hle := FirstUse.length_eraseDups_le_of_subset pixels fun _ hc => hc
  have hlength := Quantize.length_entries_ofPixels pixels
  refine ⟨by omega, ?_, hk.length_eq.trans hlength.symm, hk.lt_clusters⟩
  rwa [population_ofPixels]

theorem numbers_eq_some {colors : List Rgba} (h : colors.eraseDups.length ≤ 256) :
    (Histogram.ofPixels colors).pixelEntries.toList.mapM (word 8) =
      some (Histogram.ofPixels colors).pixelEntries.toList := by
  have hfits : ∀ n ∈ (Histogram.ofPixels colors).pixelEntries.toList, word 8 n = some (id n) := by
    intro n hn
    rw [Histogram.pixelEntries_ofPixels] at hn
    obtain ⟨c, hc, rfl⟩ := List.mem_map.1 hn
    exact word_eq_some (Nat.lt_of_lt_of_le (FirstUse.idxOf_eraseDups_lt hc) h)
  rw [FirstUse.mapM_eq_some_map hfits, List.map_id]

/-- The entry of a pixel is one of the entries, so where each of these has a number, the pixel
finds one. -/
theorem indices_eq_some {numbers : Array Nat} (h : numbers.size = pixels.eraseDups.length) :
    ((Histogram.ofPixels pixels).pixelEntries.toList.mapM fun e =>
        numbers.toList[e]?.bind fun n => some (UInt8.ofNat n)) =
      some ((Histogram.ofPixels pixels).pixelEntries.toList.map fun e =>
        UInt8.ofNat (numbers.getD e 0)) := by
  apply FirstUse.mapM_eq_some_map
  intro e he
  rw [Histogram.pixelEntries_ofPixels] at he
  obtain ⟨c, hc, rfl⟩ := List.mem_map.1 he
  have hlt : pixels.eraseDups.idxOf c < numbers.size := by
    rw [h]
    exact FirstUse.idxOf_eraseDups_lt hc
  rw [Array.getElem?_toList, Array.getD_eq_getD_getElem?, Array.getElem?_eq_getElem hlt]
  rfl

theorem draw_eq_some (h : pixels.length < 2 ^ 32)
    (hk : Quantize.Covers k pixels.eraseDups.length)
    (hcolors : (Quantize.drawn (Histogram.ofPixels pixels).entries.toList k).eraseDups.length ≤ 256) :
    draw (Histogram.ofPixels pixels) k = some (Quantize.draw (Histogram.ofPixels pixels) k) := by
  have hle := FirstUse.length_eraseDups_le_of_subset pixels fun _ hc => hc
  have hlength := Quantize.length_drawn (Histogram.ofPixels pixels).entries.toList k
  rw [hk.length_eq] at hlength
  rw [draw, Quantize.draw, drawn_eq_some (fits_ofPixels h hk)]
  generalize Quantize.drawn (Histogram.ofPixels pixels).entries.toList k = colors at *
  have htable : histogram colors = some (Histogram.ofPixels colors) :=
    histogram_eq_some (by omega)
  have hsize : (Histogram.ofPixels colors).pixelEntries.size = pixels.eraseDups.length := by
    rw [← Array.length_toList, Histogram.pixelEntries_ofPixels, List.length_map, hlength]
  simp only [Option.bind_eq_bind, Option.bind_some, htable, numbers_eq_some hcolors]
  -- Both runs ask for the same palette, and answer alike if there is none.
  cases Palette.ofList (Histogram.ofPixels colors).colors with
  | error e => rfl
  | ok palette =>
      simp only [Option.pure_def, indices_eq_some hsize]
      rfl

/-! ## The whole run -/

def quantize (dist : Perceptual → Perceptual → Float32) (pixels : List Rgba) (depth : BitDepth)
    (options : QuantizeOptions) : Option (Except EncodeError Quantized) :=
  if depth.capacity < options.count then
    some (.error (.invalidQuantizeCount options.count depth.capacity))
  else if pixels.isEmpty then some (.error .emptyImage)
  else do
    let picture ← histogram pixels
    if options.count = 0 ∧ depth.capacity < picture.size then
      return .error (.paletteOverflow picture.size depth.capacity)
    else draw picture (← cluster dist picture.entries.toList options)

variable {depth : BitDepth} {options : QuantizeOptions}

/-- What is not refused for any of the three reasons is accepted. -/
theorem accepts_of_not_refused (hcount : ¬ depth.capacity < options.count)
    (hnil : ¬ pixels.isEmpty = true)
    (hfits : ¬ (options.count = 0 ∧ depth.capacity < (Histogram.ofPixels pixels).size)) :
    Quantize.Accepts pixels depth options := by
  refine ⟨Nat.not_lt.1 hcount, by simpa using hnil, ?_⟩
  intro hzero
  rw [Histogram.size_ofPixels] at hfits
  exact Nat.not_lt.1 fun hlt => hfits ⟨hzero, hlt⟩

/-- The colors to number are those of the palette, and the depth bounds them. -/
theorem length_eraseDups_drawn_le (haccepts : Quantize.Accepts pixels depth options) :
    (Quantize.drawn (Histogram.ofPixels pixels).entries.toList
      (Quantize.cluster dist (Histogram.ofPixels pixels).entries.toList options)).eraseDups.length ≤
        256 := by
  have hcovers := Quantize.covers_cluster_ofPixels dist options haccepts.ne_nil
  obtain ⟨q, hq, hdraws⟩ := haccepts.exists_draws dist
  have hsize := Quantize.size_le_256 hq
  rwa [hdraws.size_eq, Quantize.picture, FirstUse.eraseDups_map,
    ← Quantize.drawn_eq_map_shade hcovers] at hsize

theorem draw_cluster_eq_some (h : pixels.length < 2 ^ 32)
    (haccepts : Quantize.Accepts pixels depth options) :
    draw (Histogram.ofPixels pixels)
        (Quantize.cluster dist (Histogram.ofPixels pixels).entries.toList options) =
      some (Quantize.draw (Histogram.ofPixels pixels)
        (Quantize.cluster dist (Histogram.ofPixels pixels).entries.toList options)) :=
  draw_eq_some h (Quantize.covers_cluster_ofPixels dist options haccepts.ne_nil)
    (length_eraseDups_drawn_le haccepts)

/-- No guard is ever broken: the guarded run has a result, and it is that of the plain one. -/
theorem quantize_eq_some (h : pixels.length < 2 ^ 32) :
    quantize dist pixels depth options = some (quantizeWith dist pixels depth options) := by
  rw [quantize, quantizeWith]
  split
  · rfl
  · next hcount =>
    split
    · rfl
    · next hnil =>
      rw [histogram_eq_some h]
      simp only [Option.bind_eq_bind, Option.bind_some]
      split
      · rfl
      · next hfits =>
        -- Past the three refusals the pixels are accepted, so their clusters cover the entries.
        have haccepts := accepts_of_not_refused hcount hnil hfits
        have hentries := Histogram.entries_ofPixels_ne_nil haccepts.ne_nil
        have hle := FirstUse.length_eraseDups_le_of_subset pixels fun _ hc => hc
        have hlength := Quantize.length_entries_ofPixels pixels
        rw [cluster_eq_some (by omega) (by rwa [population_ofPixels]) hentries]
        exact draw_cluster_eq_some h haccepts

end Guarded

end PaletteBitmap

import PaletteBitmap.Proofs.FirstUse
import PaletteBitmap.Proofs.MedianCut
import PaletteBitmap.Proofs.Means
import PaletteBitmap.Quantize.Basic

/-!
# Quantized images

A quantized image draws a picture: its palette lists the colors of the picture in the order of
their first use, and its indices number the pixels by that order (`Quantized.Draws`).  What
`quantizeWith` yields always draws such a picture, namely the pixels with every color replaced
by the mean of its cluster; when the image fits already, the pixels themselves.

The shape of the result follows from this, and so does the fact that quantizing again what was
quantized changes nothing.  Everything holds for any measure of distance between colors, so
nothing depends on how distances are rounded.
-/

namespace PaletteBitmap

open FirstUse

/-! ## Pictures -/

namespace Quantized

/-- A quantized image that shows a picture, with its colors in the order of first use. -/
structure Draws (q : Quantized) (picture : List Rgba) : Prop where
  entries : q.palette.entries = picture.eraseDups
  indices : q.indices = picture.map fun c => UInt8.ofNat (picture.eraseDups.idxOf c)

/-- The colors of the pixels, each looked up in the palette; nothing if one is not there. -/
def picture? (q : Quantized) : Option (List Rgba) :=
  q.indices.mapM fun i => q.palette.get? i.toNat

variable {q : Quantized} {picture : List Rgba}

/-- Only one quantized image draws a picture. -/
theorem Draws.unique {q' : Quantized} (h : q.Draws picture) (h' : q'.Draws picture) :
    q' = q := by
  rcases q with ⟨⟨entries, hne, hnodup⟩, indices⟩
  rcases q' with ⟨⟨entries', hne', hnodup'⟩, indices'⟩
  have hentries : entries' = entries := h'.entries.trans h.entries.symm
  have hindices : indices' = indices := h'.indices.trans h.indices.symm
  subst hentries hindices
  rfl

theorem Draws.size_eq (h : q.Draws picture) : q.palette.size = picture.eraseDups.length := by
  rw [Palette.size, h.entries]

theorem Draws.length_indices (h : q.Draws picture) : q.indices.length = picture.length := by
  rw [h.indices, List.length_map]

/-- The number of a color survives being stored in a byte. -/
theorem Draws.toNat_number (h : q.Draws picture) (hsize : q.palette.size ≤ 256) {c : Rgba}
    (hc : c ∈ picture) :
    (UInt8.ofNat (picture.eraseDups.idxOf c)).toNat = picture.eraseDups.idxOf c := by
  have hlt := idxOf_eraseDups_lt hc
  rw [h.size_eq] at hsize
  rw [UInt8.toNat_ofNat']
  exact Nat.mod_eq_of_lt (by omega)

theorem Draws.index_lt (h : q.Draws picture) (hsize : q.palette.size ≤ 256) {i : UInt8}
    (hi : i ∈ q.indices) : i.toNat < q.palette.size := by
  rw [h.indices] at hi
  obtain ⟨c, hc, rfl⟩ := List.mem_map.1 hi
  rw [h.toNat_number hsize hc, h.size_eq]
  exact idxOf_eraseDups_lt hc

/-- No palette entry is idle. -/
theorem Draws.exists_index (h : q.Draws picture) (hsize : q.palette.size ≤ 256) {k : Nat}
    (hk : k < q.palette.size) : ∃ i ∈ q.indices, i.toNat = k := by
  rw [h.size_eq] at hk
  -- The pixel to look at is one that has the color of the entry.
  have hmem : picture.eraseDups[k] ∈ picture := List.mem_eraseDups.1 (List.getElem_mem hk)
  refine ⟨UInt8.ofNat (picture.eraseDups.idxOf picture.eraseDups[k]), ?_, ?_⟩
  · rw [h.indices]
    exact List.mem_map.2 ⟨_, hmem, rfl⟩
  · rw [h.toNat_number hsize hmem]
    exact (nodup_eraseDups picture).idxOf_getElem k hk

/-- Looking up the indices gives the picture back. -/
theorem Draws.lookup (h : q.Draws picture) (hsize : q.palette.size ≤ 256) :
    q.picture? = some picture := by
  have hget : ∀ c ∈ picture,
      q.palette.get? (UInt8.ofNat (picture.eraseDups.idxOf c)).toNat = some (id c) := by
    intro c hc
    rw [h.toNat_number hsize hc, Palette.get?, h.entries]
    exact getElem?_idxOf_eraseDups hc
  have hall := mapM_eq_some_map hget
  rw [List.map_id] at hall
  rw [picture?, h.indices, List.mapM_map]
  exact hall

end Quantized

/-! ## Drawing the means -/

namespace Quantize

/-- A clustering of `n` entries: a cluster for each, and each of them counted. -/
structure Covers (k : Clustering) (n : Nat) : Prop where
  length_eq : k.assignment.length = n
  lt_clusters : ∀ c ∈ k.assignment, c < k.clusters

/-- The color that a color of the image is drawn in. -/
def shade (pixels : List Rgba) (k : Clustering) (c : Rgba) : Rgba :=
  (drawn (Histogram.ofPixels pixels).entries.toList k).getD (pixels.eraseDups.idxOf c)
    Rgba.transparent

variable {pixels : List Rgba} {k : Clustering}

@[simp]
theorem length_drawn (entries : List HistogramEntry) (k : Clustering) :
    (drawn entries k).length = k.assignment.length := by
  simp [drawn]

/-- The table of drawn colors holds the shades of the colors in order of first use. -/
theorem drawn_eq_map_shade (h : Covers k pixels.eraseDups.length) :
    drawn (Histogram.ofPixels pixels).entries.toList k =
      pixels.eraseDups.map (shade pixels k) := by
  apply List.ext_getElem
  · rw [length_drawn, h.length_eq, List.length_map]
  · intro i h₁ h₂
    have hi : i < pixels.eraseDups.length := by simpa using h₂
    have hidx : pixels.eraseDups.idxOf pixels.eraseDups[i] = i :=
      (nodup_eraseDups pixels).idxOf_getElem i hi
    rw [List.getElem_map, shade, hidx, List.getD_eq_getElem?_getD, List.getElem?_eq_getElem h₁]
    rfl

/-- Drawing the clusters of an image yields the picture of its shades. -/
theorem exists_draw (hne : pixels ≠ []) (h : Covers k pixels.eraseDups.length) :
    ∃ q, draw (Histogram.ofPixels pixels) k = .ok q ∧
      q.Draws (pixels.map (shade pixels k)) := by
  -- The picture may be scanned entry by entry: first uses are the same as pixel by pixel.
  have hfirst : (drawn (Histogram.ofPixels pixels).entries.toList k).eraseDups =
      (pixels.map (shade pixels k)).eraseDups := by
    rw [drawn_eq_map_shade h, ← eraseDups_map]
  have hnil : (drawn (Histogram.ofPixels pixels).entries.toList k).eraseDups ≠ [] := by
    rw [hfirst, Ne, eraseDups_eq_nil_iff, List.map_eq_nil_iff]
    exact hne
  simp only [draw, Histogram.colors_ofPixels]
  -- First uses are all different, so there is a palette.
  rw [Palette.ofList_of_nodup hnil (nodup_eraseDups _)]
  refine ⟨_, rfl, hfirst, ?_⟩
  rw [Histogram.pixelEntries_ofPixels, List.map_map, List.map_map]
  apply List.map_congr_left
  intro c hc
  have hidx := idxOf_eraseDups_lt hc
  -- A pixel finds its entry, and the entry the number of its shade.
  have htable : (Histogram.ofPixels (drawn (Histogram.ofPixels pixels).entries.toList
      k)).pixelEntries.getD (pixels.eraseDups.idxOf c) 0 =
      (pixels.map (shade pixels k)).eraseDups.idxOf (shade pixels k c) := by
    rw [Array.getD_eq_getD_getElem?, ← Array.getElem?_toList, Histogram.pixelEntries_ofPixels,
      List.getElem?_map, hfirst, drawn_eq_map_shade h, List.getElem?_map,
      getElem?_idxOf_eraseDups hc]
    rfl
  exact congrArg UInt8.ofNat htable

theorem shade_mem_means (h : Covers k pixels.eraseDups.length) {c : Rgba} (hc : c ∈ pixels) :
    shade pixels k c ∈ (List.range k.clusters).map fun i =>
      ((Clustering.sums (Histogram.ofPixels pixels).entries.toList k.assignment
        k.clusters).map ColorSum.mean).getD i Rgba.transparent := by
  have hidx : pixels.eraseDups.idxOf c < k.assignment.length := by
    rw [h.length_eq]
    exact idxOf_eraseDups_lt hc
  have hcluster := h.lt_clusters _ (List.getElem_mem hidx)
  refine List.mem_map.2 ⟨k.assignment[pixels.eraseDups.idxOf c],
    List.mem_range.2 hcluster, ?_⟩
  rw [shade, drawn, List.getD_eq_getElem?_getD, List.getElem?_map,
    List.getElem?_eq_getElem hidx]
  rfl

theorem length_shades_le_clusters (h : Covers k pixels.eraseDups.length) :
    (pixels.map (shade pixels k)).eraseDups.length ≤ k.clusters := by
  have hmeans := length_eraseDups_le_of_subset (pixels.map (shade pixels k)) fun s hs => by
    obtain ⟨c, hc, rfl⟩ := List.mem_map.1 hs
    exact shade_mem_means h hc
  simpa using hmeans

theorem length_shades_le_colors (pixels : List Rgba) (k : Clustering) :
    (pixels.map (shade pixels k)).eraseDups.length ≤ pixels.eraseDups.length := by
  rw [eraseDups_map]
  have hlen := length_eraseDups_le_of_subset (pixels.eraseDups.map (shade pixels k))
    fun _ hs => hs
  simpa using hlen

/-! ## Clusters of an image -/

theorem covers_identity (n : Nat) : Covers (Clustering.identity n) n := by
  refine ⟨List.length_range, ?_⟩
  intro c hc
  exact List.mem_range.1 hc

variable {dist : Perceptual → Perceptual → Float32} {entries : List HistogramEntry}
  {options : QuantizeOptions}

theorem cluster_of_fits (h : options.count = 0 ∨ entries.length ≤ options.count) :
    cluster dist entries options = Clustering.identity entries.length := by
  rw [cluster, if_pos h]

/-- However an image is clustered, no entry and no cluster is lost sight of. -/
theorem covers_cluster (dist : Perceptual → Perceptual → Float32)
    (options : QuantizeOptions) (hne : entries ≠ []) :
    Covers (cluster dist entries options) entries.length := by
  by_cases h : options.count = 0 ∨ entries.length ≤ options.count
  · rw [cluster_of_fits h]
    exact covers_identity entries.length
  · have hcount : 0 < options.count := by omega
    rw [cluster, if_neg h]
    refine ⟨?_, ?_⟩
    · exact Clustering.length_refine _ (Clustering.length_assignment_medianCut hne hcount)
    · exact Clustering.lt_of_mem_refine _ fun c hc =>
        Clustering.lt_clusters_medianCut hne hcount hc

theorem clusters_cluster_le (hne : entries ≠ []) (hcount : 0 < options.count) :
    (cluster dist entries options).clusters ≤ options.count := by
  by_cases h : options.count = 0 ∨ entries.length ≤ options.count
  · rw [cluster_of_fits h]
    rcases h with h | h
    · omega
    · exact h
  · rw [cluster, if_neg h]
    exact Clustering.clusters_medianCut_le hne hcount

theorem length_entries_ofPixels (pixels : List Rgba) :
    (Histogram.ofPixels pixels).entries.toList.length = pixels.eraseDups.length := by
  rw [Histogram.entries_ofPixels, List.length_map]

theorem covers_cluster_ofPixels (dist : Perceptual → Perceptual → Float32)
    (options : QuantizeOptions) (hne : pixels ≠ []) :
    Covers (cluster dist (Histogram.ofPixels pixels).entries.toList options)
      pixels.eraseDups.length := by
  have hcovers := covers_cluster dist options (Histogram.entries_ofPixels_ne_nil hne)
  rwa [length_entries_ofPixels] at hcovers

/-- Where every color is a cluster of its own, it is drawn as it is. -/
theorem shade_identity {c : Rgba} (hc : c ∈ pixels) :
    shade pixels (Clustering.identity pixels.eraseDups.length) c = c := by
  have hi := idxOf_eraseDups_lt hc
  have hentry : (Histogram.ofPixels pixels).entries.toList[pixels.eraseDups.idxOf c]? =
      some ⟨c, pixels.count c⟩ := by
    rw [Histogram.entries_ofPixels, List.getElem?_map, getElem?_idxOf_eraseDups hc]
    rfl
  -- The only member of the cluster is the entry of `c`, which counts at least one pixel.
  have hmembers := Clustering.membersIn_identity _ hentry
  have hmean := Clustering.getD_means (Histogram.ofPixels pixels).entries.toList
    (List.range pixels.eraseDups.length) pixels.eraseDups.length _ hi
  rw [length_entries_ofPixels] at hmembers
  rw [hmembers] at hmean
  rw [shade, drawn, Clustering.identity, List.getD_eq_getElem?_getD, List.getElem?_map,
    List.getElem?_range hi]
  exact hmean.trans (ColorSum.mean_single c (List.count_pos_iff.2 hc))

/-! ## What is accepted -/

/-- What the pixels, the depth and the options must be for there to be a result. -/
structure Accepts (pixels : List Rgba) (depth : BitDepth) (options : QuantizeOptions) :
    Prop where
  count_le : options.count ≤ depth.capacity
  ne_nil : pixels ≠ []
  fits : options.count = 0 → pixels.eraseDups.length ≤ depth.capacity

variable {depth : BitDepth}

theorem Accepts.quantizeWith_eq (h : Accepts pixels depth options) :
    quantizeWith dist pixels depth options = draw (Histogram.ofPixels pixels)
      (cluster dist (Histogram.ofPixels pixels).entries.toList options) := by
  have hcount : ¬ depth.capacity < options.count := Nat.not_lt.2 h.count_le
  have hnil : ¬ pixels.isEmpty = true := by simpa using h.ne_nil
  have hfits : ¬ (options.count = 0 ∧
      depth.capacity < (Histogram.ofPixels pixels).size) := by
    rintro ⟨hzero, hlt⟩
    have hle := h.fits hzero
    rw [Histogram.size_ofPixels] at hlt
    omega
  rw [quantizeWith, if_neg hcount, if_neg hnil]
  simp only [if_neg hfits]

theorem accepts_of_quantizeWith {q : Quantized}
    (h : quantizeWith dist pixels depth options = .ok q) : Accepts pixels depth options := by
  rw [quantizeWith] at h
  split at h
  · cases h
  · next hcount =>
    split at h
    · cases h
    · next hnil =>
      simp only [Histogram.size_ofPixels] at h
      split at h
      · cases h
      · next hfits =>
        refine ⟨Nat.not_lt.1 hcount, by simpa using hnil, ?_⟩
        intro hzero
        exact Nat.not_lt.1 fun hlt => hfits ⟨hzero, hlt⟩

/-- The picture that an image becomes: its pixels in the shades of their clusters. -/
def picture (dist : Perceptual → Perceptual → Float32) (pixels : List Rgba)
    (options : QuantizeOptions) : List Rgba :=
  pixels.map (shade pixels (cluster dist (Histogram.ofPixels pixels).entries.toList options))

/-- What is accepted has a result, its picture. -/
theorem Accepts.exists_draws (h : Accepts pixels depth options)
    (dist : Perceptual → Perceptual → Float32) :
    ∃ q, quantizeWith dist pixels depth options = .ok q ∧
      q.Draws (picture dist pixels options) := by
  rw [h.quantizeWith_eq]
  exact exists_draw h.ne_nil (covers_cluster_ofPixels dist options h.ne_nil)

theorem picture_of_fits (dist : Perceptual → Perceptual → Float32)
    (hfits : options.count = 0 ∨ pixels.eraseDups.length ≤ options.count) :
    picture dist pixels options = pixels := by
  rw [← length_entries_ofPixels] at hfits
  have hself := List.map_congr_left fun c (hc : c ∈ pixels) => shade_identity hc
  rw [picture, cluster_of_fits hfits, length_entries_ofPixels, hself, List.map_id']

/-- Where no color has to give way, the picture is the image itself. -/
theorem Accepts.exists_draws_self (h : Accepts pixels depth options)
    (dist : Perceptual → Perceptual → Float32)
    (hfits : options.count = 0 ∨ pixels.eraseDups.length ≤ options.count) :
    ∃ q, quantizeWith dist pixels depth options = .ok q ∧ q.Draws pixels := by
  obtain ⟨q, hq, hdraws⟩ := h.exists_draws dist
  rw [picture_of_fits dist hfits] at hdraws
  exact ⟨q, hq, hdraws⟩

/-! ## Bounds on the palette -/

variable {q : Quantized}

theorem draws_of_quantizeWith (h : quantizeWith dist pixels depth options = .ok q) :
    q.Draws (picture dist pixels options) := by
  obtain ⟨q', hq', hdraws⟩ := (accepts_of_quantizeWith h).exists_draws dist
  rw [h] at hq'
  cases hq'
  exact hdraws

theorem size_le_colors (h : quantizeWith dist pixels depth options = .ok q) :
    q.palette.size ≤ pixels.eraseDups.length := by
  calc
    q.palette.size
        = (picture dist pixels options).eraseDups.length := (draws_of_quantizeWith h).size_eq
    _ ≤ pixels.eraseDups.length := length_shades_le_colors pixels _

theorem size_le_count (h : quantizeWith dist pixels depth options = .ok q)
    (hcount : 0 < options.count) : q.palette.size ≤ options.count := by
  have hne := (accepts_of_quantizeWith h).ne_nil
  calc
    q.palette.size
        = (picture dist pixels options).eraseDups.length := (draws_of_quantizeWith h).size_eq
    _ ≤ (cluster dist (Histogram.ofPixels pixels).entries.toList options).clusters :=
          length_shades_le_clusters (covers_cluster_ofPixels dist options hne)
    _ ≤ options.count := clusters_cluster_le (Histogram.entries_ofPixels_ne_nil hne) hcount

theorem size_le_capacity (h : quantizeWith dist pixels depth options = .ok q) :
    q.palette.size ≤ depth.capacity := by
  have haccepts := accepts_of_quantizeWith h
  rcases Nat.eq_zero_or_pos options.count with hzero | hpos
  · exact Nat.le_trans (size_le_colors h) (haccepts.fits hzero)
  · exact Nat.le_trans (size_le_count h hpos) haccepts.count_le

theorem size_le_256 (h : quantizeWith dist pixels depth options = .ok q) :
    q.palette.size ≤ 256 :=
  Nat.le_trans (size_le_capacity h) depth.capacity_le

end Quantize

/-! ## Main statements -/

/-- Two reds and a blue that are to share one color. -/
def reds : List Rgba := [⟨255, 0, 0, 255⟩, ⟨250, 0, 0, 255⟩, ⟨0, 0, 255, 255⟩, ⟨255, 0, 0, 255⟩]

/-- All of `reds` in their mean. -/
def merged : Quantized := ⟨⟨[⟨190, 0, 64, 255⟩], by decide, by decide⟩, [0, 0, 0, 0]⟩

theorem quantizeWith_reds :
    quantizeWith Perceptual.distance reds .one { count := 1 } = .ok merged := by
  cbv

open Quantize

variable {dist : Perceptual → Perceptual → Float32} {pixels : List Rgba} {depth : BitDepth}
  {options : QuantizeOptions} {q : Quantized}

/-- The palette of a quantized image is within all bounds, and indices and entries answer each
other: every index has an entry and every entry an index. -/
theorem quantizeWith_within_bounds (h : quantizeWith dist pixels depth options = .ok q) :
    q.palette.entries ≠ [] ∧ q.palette.entries.Nodup ∧
      q.palette.size ≤ depth.capacity ∧
      (0 < options.count → q.palette.size ≤ options.count) ∧
      q.palette.size ≤ pixels.toFinset.card ∧
      q.indices.length = pixels.length ∧
      (∀ i ∈ q.indices, i.toNat < q.palette.size) ∧
      (∀ k < q.palette.size, ∃ i ∈ q.indices, i.toNat = k) := by
  have hdraws := draws_of_quantizeWith h
  have hsize := size_le_256 h
  refine ⟨q.palette.entries_ne_nil, q.palette.nodup, size_le_capacity h, size_le_count h,
    ?_, ?_, ?_, ?_⟩
  · rw [← length_eraseDups]
    exact size_le_colors h
  · rw [hdraws.length_indices, picture, List.length_map]
  · intro i hi
    exact hdraws.index_lt hsize hi
  · intro k hk
    exact hdraws.exists_index hsize hk

theorem reds_within_bounds :
    quantizeWith Perceptual.distance reds .one { count := 1 } = .ok merged ∧
      merged.palette.size ≤ reds.toFinset.card ∧
      (∀ i ∈ merged.indices, i.toNat < merged.palette.size) ∧
      (∀ k < merged.palette.size, ∃ i ∈ merged.indices, i.toNat = k) := by
  have hbounds := quantizeWith_within_bounds quantizeWith_reds
  exact ⟨quantizeWith_reds, hbounds.2.2.2.2.1, hbounds.2.2.2.2.2.2⟩

end PaletteBitmap

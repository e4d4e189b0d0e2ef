import Mathlib
import PaletteBitmap.Proofs.Numbering
import PaletteBitmap.Proofs.Partition
import PaletteBitmap.Proofs.WordCut

/-!
# A run of the quantizer in machine words

The rounds of refinement and the drawing of the clusters in words, and with them the whole run.
Palette positions are bytes here, given to the colors as they are first drawn.

The main result, `quantize_exact`, is for fewer than 2³² pixels: the run in words has the result of
`quantizeWith`, and so has the guarded run, in which nothing wraps around, nothing is divided by
zero, and no mean has to be limited to a byte.  On the way there each stage reads as it is in numbers
without end (`Exact`).
-/

namespace PaletteBitmap

namespace Words

/-! ## Rounds -/

def centers (sums : Array ColorTotal) : List (Option Perceptual) :=
  sums.toList.map fun s => if 0 < s.count then some (Perceptual.ofRgba s.mean) else none

def round (dist : Perceptual → Perceptual → Float32) (entries : List Entry)
    (points : List Perceptual) (clusters : Nat) (assignment : List Nat) : List Nat :=
  let centers := centers (sums entries assignment clusters)
  let placements :=
    List.zipWith (Clustering.place dist centers) (entries.map Entry.read) points
  ((Clustering.fillAll clusters placements.toArray).map (·.cluster)).toList

def refine (dist : Perceptual → Perceptual → Float32) (entries : List Entry)
    (assignment : List Nat) (clusters iterations : Nat) : List Nat :=
  if clusters < 2 then assignment
  else
    let points := entries.map fun e => Perceptual.ofRgba e.color
    Clustering.settle (round dist entries points clusters) iterations assignment

variable {dist : Perceptual → Perceptual → Float32} {entries : List Entry} {assignment : List Nat}
  {clusters : Nat}

theorem read_sums (h : Guarded.Fits (entries.map Entry.read) assignment clusters) :
    (sums entries assignment clusters).map ColorTotal.read =
      Clustering.sums (entries.map Entry.read) assignment clusters :=
  read_sums_of_guarded (Guarded.sums_eq_some h).1

/-- No mean of the sums breaks a guard. -/
theorem guarded_mean (h : Guarded.Fits (entries.map Entry.read) assignment clusters)
    {s : ColorTotal} (hs : s ∈ sums entries assignment clusters) :
    Guarded.mean s.read = some s.read.mean := by
  have hread : s.read ∈ Clustering.sums (entries.map Entry.read) assignment clusters := by
    rw [← read_sums h]
    exact Array.mem_map_of_mem hs
  obtain ⟨hbounded, hcount⟩ := (Guarded.sums_eq_some h).2 _ hread
  exact Guarded.mean_eq_some hbounded hcount

theorem mean_eq (h : Guarded.Fits (entries.map Entry.read) assignment clusters) {s : ColorTotal}
    (hs : s ∈ sums entries assignment clusters) : s.mean = s.read.mean :=
  mean_of_guarded (guarded_mean h hs)

theorem centers_sums (h : Guarded.Fits (entries.map Entry.read) assignment clusters) :
    centers (sums entries assignment clusters) =
      Clustering.centers (Clustering.sums (entries.map Entry.read) assignment clusters) := by
  rw [← read_sums h, centers, Clustering.centers, Array.toList_map, List.map_map]
  apply List.map_congr_left
  intro s hs
  have hpos : 0 < s.count ↔ 0 < s.read.count := UInt64.lt_iff_toNat_lt
  simp only [Function.comp_apply, mean_eq h (Array.mem_toList_iff.1 hs), hpos]

theorem round_eq (h : Guarded.Fits (entries.map Entry.read) assignment clusters)
    (points : List Perceptual) :
    round dist entries points clusters assignment =
      Clustering.round dist (entries.map Entry.read) points clusters assignment := by
  rw [round, centers_sums h, Clustering.round]

/-- Steps that agree where an invariant holds come to rest alike. -/
theorem settle_congr {step step' : List Nat → List Nat} {P : List Nat → Prop}
    (hstep : ∀ a, P a → step' a = step a ∧ P (step a)) (n : Nat) {a : List Nat} (h : P a) :
    Clustering.settle step' n a = Clustering.settle step n a := by
  induction n generalizing a with
  | zero => rfl
  | succ n ih =>
      obtain ⟨hsame, hkept⟩ := hstep a h
      simp only [Clustering.settle, hsame, ih hkept]

theorem refine_eq (h : Guarded.Fits (entries.map Entry.read) assignment clusters)
    (iterations : Nat) :
    refine dist entries assignment clusters iterations =
      Clustering.refine dist (entries.map Entry.read) assignment clusters iterations := by
  rw [refine, Clustering.refine, List.map_map]
  split
  · rfl
  · next hclusters =>
    apply settle_congr (P := fun a => Guarded.Fits (entries.map Entry.read) a clusters) _ _ h
    -- What every round keeps is that the assignment fits the entries and the clusters.
    intro a ha
    refine ⟨round_eq ha _, ?_⟩
    exact (Guarded.round_eq_some ha (by omega) (by simp)).2

/-! ## Clusters -/

def cluster (dist : Perceptual → Perceptual → Float32) (entries : List Entry)
    (options : QuantizeOptions) : Clustering :=
  if options.count = 0 ∨ entries.length ≤ options.count then Clustering.identity entries.length
  else
    let cut := medianCut entries options.count
    ⟨refine dist entries cut.assignment cut.clusters options.iterations, cut.clusters⟩

/-- The color in which each entry is drawn. -/
def drawn (entries : List Entry) (k : Clustering) : List Rgba :=
  let means := (sums entries k.assignment k.clusters).map ColorTotal.mean
  k.assignment.map fun c => means.getD c Rgba.transparent

theorem cluster_eq (hlength : entries.length < 2 ^ 32)
    (hpopulation : Guarded.population (entries.map Entry.read) < 2 ^ 32) (hne : entries ≠ [])
    (options : QuantizeOptions) :
    cluster dist entries options = Quantize.cluster dist (entries.map Entry.read) options := by
  rw [cluster, Quantize.cluster, List.length_map]
  split
  · rfl
  · next hmany =>
    have hcount : 0 < options.count := by omega
    have hread : entries.map Entry.read ≠ [] := by simpa using hne
    have hfits : Guarded.Fits (entries.map Entry.read)
        (Clustering.medianCut (entries.map Entry.read) options.count).assignment
        (Clustering.medianCut (entries.map Entry.read) options.count).clusters :=
      ⟨by simpa using hlength, hpopulation, Clustering.length_assignment_medianCut hread hcount,
        fun _ hk => Clustering.lt_clusters_medianCut hread hcount hk⟩
    simp only [medianCut_eq hpopulation, refine_eq hfits]

theorem drawn_eq {k : Clustering}
    (h : Guarded.Fits (entries.map Entry.read) k.assignment k.clusters) :
    drawn entries k = Quantize.drawn (entries.map Entry.read) k := by
  have hmeans : (sums entries k.assignment k.clusters).map ColorTotal.mean =
      (Clustering.sums (entries.map Entry.read) k.assignment k.clusters).map ColorSum.mean := by
    rw [← read_sums h, Array.map_map]
    exact Array.map_congr_left fun s hs => mean_eq h hs
  rw [drawn, Quantize.drawn, hmeans]

/-! ## Palette positions -/

/-- The palette so far, and the position of each color that was drawn. -/
structure Numbering where
  known : Std.HashMap Rgba UInt8 := ∅
  colors : Array Rgba := #[]
  numbers : Array UInt8 := #[]

def Numbering.add (s : Numbering) (c : Rgba) : Numbering :=
  match s.known[c]? with
  | some i => { s with numbers := s.numbers.push i }
  | none =>
    let i := UInt8.ofNat s.colors.size
    ⟨s.known.insert c i, s.colors.push c, s.numbers.push i⟩

def numbering (colors : List Rgba) : Numbering := colors.foldl Numbering.add {}

/-- Palette positions that are read as positions of entries. -/
structure Numbering.Reads (s : Numbering) (t : Histogram.Counting) : Prop where
  known : ∀ c : Rgba, s.known[c]?.map UInt8.toNat = t.seen[c]?
  colors : s.colors = t.entries.map (·.color)
  numbers : s.numbers.map UInt8.toNat = t.pixelEntries

theorem Numbering.reads_start : Numbering.Reads {} {} :=
  ⟨fun c => by simp, Array.map_empty.symm, Array.map_empty⟩

section Numbering

variable {s : Numbering} {t : Histogram.Counting} {c : Rgba}

theorem size_entries_le_add (t : Histogram.Counting) (c : Rgba) :
    t.entries.size ≤ (t.add c).entries.size := by
  rw [Histogram.Counting.add]
  split
  · exact Nat.le_of_eq Array.size_modify.symm
  · simp

theorem Numbering.Reads.add (h : s.Reads t) (hfits : (t.add c).entries.size ≤ 256) :
    (s.add c).Reads (t.add c) := by
  have hknown := h.known c
  rw [Numbering.add]
  rw [Histogram.Counting.add] at hfits ⊢
  cases hs : s.known[c]? with
  | some i =>
      rw [hs, Option.map_some] at hknown
      simp only [← hknown]
      refine ⟨h.known, ?_, ?_⟩
      · -- One more pixel changes the count of an entry, but not its color.
        rw [h.colors]
        apply Array.ext_getElem?
        intro j
        rw [Array.getElem?_map, Array.getElem?_map, Array.getElem?_modify]
        split
        · rw [Option.map_map]
          rfl
        · rfl
      · rw [Array.map_push, h.numbers]
  | none =>
      rw [hs, Option.map_none] at hknown
      simp only [← hknown] at hfits ⊢
      have hsize : s.colors.size = t.entries.size := by
        rw [h.colors, Array.size_map]
      have hplace : (UInt8.ofNat s.colors.size).toNat = t.entries.size := by
        rw [Array.size_push] at hfits
        rw [hsize, UInt8.toNat_ofNat_of_lt' hfits]
      refine ⟨?_, ?_, ?_⟩
      · intro d
        simp only [Std.HashMap.getElem?_insert]
        split
        · rw [← hplace]
          rfl
        · exact h.known d
      · rw [h.colors, Array.map_push]
      · rw [Array.map_push, h.numbers, hplace]

/-- As long as there are bytes enough, no two colors share one. -/
theorem reads_numbering {colors : List Rgba} (h : (Histogram.ofPixels colors).size ≤ 256) :
    (numbering colors).Reads (colors.foldl Histogram.Counting.add {}) := by
  -- There are never more entries on the way than in the end, so every new position fits a byte.
  rw [numbering]
  change (colors.foldl Histogram.Counting.add {}).entries.size ≤ 256 at h
  induction colors using List.reverseRecOn with
  | nil => exact Numbering.reads_start
  | append_singleton colors c ih =>
      rw [List.foldl_append] at h ⊢
      rw [List.foldl_append]
      exact (ih (Nat.le_trans (size_entries_le_add _ c) h)).add h

end Numbering

/-! ## Drawing -/

def draw (picture : Table) (k : Clustering) : Except EncodeError Quantized :=
  let table := numbering (drawn picture.entries.toList k)
  match Palette.ofList table.colors.toList with
  | .error e => .error (.palette e)
  | .ok palette =>
    .ok ⟨palette, picture.pixelEntries.toList.map fun e => table.numbers.getD e.toNat 0⟩

theorem draw_eq {picture : Table} {k : Clustering}
    (h : Guarded.Fits (picture.entries.toList.map Entry.read) k.assignment k.clusters)
    (hcolors : (Quantize.drawn picture.read.entries.toList k).eraseDups.length ≤ 256) :
    draw picture k = Quantize.draw picture.read k := by
  have hentries : picture.read.entries.toList = picture.entries.toList.map Entry.read :=
    Array.toList_map
  rw [draw, Quantize.draw, drawn_eq h, ← hentries]
  generalize Quantize.drawn picture.read.entries.toList k = colors at hcolors
  have hreads : (numbering colors).Reads (colors.foldl Histogram.Counting.add {}) := by
    apply reads_numbering
    rwa [Histogram.size_ofPixels]
  have htable : (numbering colors).colors.toList = (Histogram.ofPixels colors).colors := by
    rw [hreads.colors, Array.toList_map]
    rfl
  -- A byte that was read is the byte again, and nothing is found at the same positions.
  have hnumber : ∀ i, (numbering colors).numbers.getD i 0 =
      UInt8.ofNat ((Histogram.ofPixels colors).pixelEntries.getD i 0) := by
    intro i
    change _ = UInt8.ofNat ((colors.foldl Histogram.Counting.add {}).pixelEntries.getD i 0)
    rw [← hreads.numbers, Array.getD_eq_getD_getElem?, Array.getD_eq_getD_getElem?,
      Array.getElem?_map]
    cases (numbering colors).numbers[i]? with
    | none => rfl
    | some n => exact UInt8.ofNat_toNat.symm
  rw [htable]
  simp only [hnumber, Table.read, Array.toList_map, List.map_map]
  rfl

/-! ## The whole run -/

def quantize (dist : Perceptual → Perceptual → Float32) (pixels : List Rgba) (depth : BitDepth)
    (options : QuantizeOptions) : Except EncodeError Quantized :=
  if depth.capacity < options.count then
    .error (.invalidQuantizeCount options.count depth.capacity)
  else if pixels.isEmpty then .error .emptyImage
  else
    let picture := histogram pixels
    if options.count = 0 ∧ depth.capacity < picture.entries.size then
      .error (.paletteOverflow picture.entries.size depth.capacity)
    else draw picture (cluster dist picture.entries.toList options)

/-- The boxes of an image after so many splits. -/
def boxes (pixels : List Rgba) (n : Nat) : List ColorBox :=
  ColorBox.splitTimes n
    [ColorBox.ofMembers (Clustering.membersOf (Histogram.ofPixels pixels).entries.toList)]

/-- A histogram in words that counts some pixels, and from which the stages of a run are computed as
they are in numbers without end. -/
structure Table.Exact (picture : Table) (pixels : List Rgba) : Prop where
  read_eq : picture.read = Histogram.ofPixels pixels
  boxes_eq : ∀ n, Box.splitTimes picture.entries.toList n
    [Box.ofMembers picture.entries.toList (List.range picture.entries.size)] =
      (boxes pixels n).map Box.ofBox
  population_eq : ∀ n, ∀ b ∈ boxes pixels n, (Box.ofBox b).population.toNat = b.population
  score_eq : ∀ n, ∀ b ∈ boxes pixels n, (Box.ofBox b).score.toNat = b.score
  /-- No difference of the ends of a channel has to stop at zero. -/
  low_le_high : pixels ≠ [] → ∀ n, ∀ b ∈ boxes pixels n, ∀ ch,
    b.extent.low.channel ch ≤ b.extent.high.channel ch
  sums_eq : ∀ (assignment : List Nat) (clusters : Nat), assignment.length = picture.entries.size →
    (∀ k ∈ assignment, k < clusters) →
      (sums picture.entries.toList assignment clusters).map ColorTotal.read =
        Clustering.sums (Histogram.ofPixels pixels).entries.toList assignment clusters
  /-- Means are divided by something, and none of them is limited. -/
  mean_eq : ∀ (assignment : List Nat) (clusters : Nat), assignment.length = picture.entries.size →
    (∀ k ∈ assignment, k < clusters) → ∀ s ∈ sums picture.entries.toList assignment clusters,
      Guarded.mean s.read = some s.mean

variable {pixels : List Rgba}

theorem read_histogram (h : pixels.length < 2 ^ 32) :
    (histogram pixels).read = Histogram.ofPixels pixels :=
  read_histogram_of_guarded (Guarded.histogram_eq_some h)

theorem map_read_entries (h : pixels.length < 2 ^ 32) :
    (histogram pixels).entries.toList.map Entry.read =
      (Histogram.ofPixels pixels).entries.toList := by
  rw [← read_histogram h, Table.read, Array.toList_map]

theorem population_entries (h : pixels.length < 2 ^ 32) :
    Guarded.population ((histogram pixels).entries.toList.map Entry.read) < 2 ^ 32 := by
  rwa [map_read_entries h, Guarded.population_ofPixels]

theorem length_entries (h : pixels.length < 2 ^ 32) :
    (histogram pixels).entries.toList.length = pixels.eraseDups.length := by
  rw [← Quantize.length_entries_ofPixels, ← map_read_entries h, List.length_map]

theorem length_entries_lt (h : pixels.length < 2 ^ 32) :
    (histogram pixels).entries.toList.length < 2 ^ 32 := by
  rw [length_entries h]
  exact Nat.lt_of_le_of_lt (FirstUse.length_eraseDups_le_of_subset pixels fun _ hc => hc) h

theorem fits_entries (h : pixels.length < 2 ^ 32) {assignment : List Nat} {clusters : Nat}
    (hlength : assignment.length = (histogram pixels).entries.size)
    (hlt : ∀ k ∈ assignment, k < clusters) :
    Guarded.Fits ((histogram pixels).entries.toList.map Entry.read) assignment clusters :=
  ⟨by simpa using length_entries_lt h, population_entries h, by simpa using hlength, hlt⟩

/-- The boxes of an image divide its entries, each of them with a member whose color is between the
ends of every channel. -/
theorem low_le_high (hne : pixels ≠ []) (n : Nat) {b : ColorBox} (hb : b ∈ boxes pixels n)
    (ch : Channel) : b.extent.low.channel ch ≤ b.extent.high.channel ch := by
  have hentries := Clustering.membersOf_ne_nil (Histogram.entries_ofPixels_ne_nil hne)
  have hdivides := (ColorBox.divides_single hentries).splitTimes n
  obtain ⟨m, hm⟩ := List.exists_mem_of_ne_nil _ (hdivides.ne_nil b hb)
  obtain ⟨hlow, hhigh⟩ := ColorBox.channel_within_extentOf hm ch
  rw [hdivides.eq_ofMembers b hb]
  exact UInt8.le_iff_toNat_le.2 (Nat.le_trans hlow hhigh)

theorem exact_histogram (h : pixels.length < 2 ^ 32) : (histogram pixels).Exact pixels := by
  have hread := map_read_entries h
  have hboxed : ∀ n, ∀ b ∈ boxes pixels n,
      Guarded.Boxed ((histogram pixels).entries.toList.map Entry.read) b := by
    intro n
    rw [boxes, ← hread]
    exact (Guarded.splitTimes_eq_some n
      (by simpa using (Guarded.boxable_membersOf (population_entries h)).boxed)).2
  constructor
  case read_eq => exact read_histogram h
  case boxes_eq =>
    intro n
    rw [boxes, ← hread]
    exact splitTimes_all (population_entries h) n
  case population_eq => exact fun n b hb => Box.toNat_population (hboxed n b hb)
  case score_eq => exact fun n b hb => Box.toNat_score (hboxed n b hb)
  case low_le_high => exact fun hne n b hb => low_le_high hne n hb
  case sums_eq =>
    intro assignment clusters hlength hlt
    rw [← hread]
    exact read_sums (fits_entries h hlength hlt)
  case mean_eq =>
    intro assignment clusters hlength hlt s hs
    have hfits := fits_entries h hlength hlt
    rw [guarded_mean hfits hs, mean_eq hfits hs]

variable {depth : BitDepth} {options : QuantizeOptions}

theorem quantize_eq (h : pixels.length < 2 ^ 32) :
    quantize dist pixels depth options = quantizeWith dist pixels depth options := by
  have hsize : (histogram pixels).entries.size = (Histogram.ofPixels pixels).size := by
    rw [← read_histogram h, Histogram.size, Table.read, Array.size_map]
  rw [quantize, quantizeWith]
  simp only [hsize]
  split
  · rfl
  · next hcount =>
    split
    · rfl
    · next hnil =>
      split
      · rfl
      · next hfits =>
        have haccepts := Guarded.accepts_of_not_refused hcount hnil hfits
        have hcovers := Quantize.covers_cluster_ofPixels dist options haccepts.ne_nil
        have hne : (histogram pixels).entries.toList ≠ [] := by
          intro hnil
          have hread := map_read_entries h
          rw [hnil, List.map_nil] at hread
          exact Histogram.entries_ofPixels_ne_nil haccepts.ne_nil hread.symm
        rw [cluster_eq (length_entries_lt h) (population_entries h) hne, map_read_entries h,
          draw_eq, read_histogram h]
        · rw [map_read_entries h]
          exact Guarded.fits_ofPixels h hcovers
        · rw [read_histogram h]
          exact Guarded.length_eraseDups_drawn_le haccepts

/-- Fewer than 2³² pixels are quantized in words as they are in numbers without end.  No guard is
broken on the way: whatever is added up fits its word, and no divisor is zero. -/
theorem quantize_exact (dist : Perceptual → Perceptual → Float32) (depth : BitDepth)
    (options : QuantizeOptions) (h : pixels.length < 2 ^ 32) :
    (histogram pixels).Exact pixels ∧
      quantize dist pixels depth options = quantizeWith dist pixels depth options ∧
      Guarded.quantize dist pixels depth options =
        some (quantizeWith dist pixels depth options) :=
  ⟨exact_histogram h, quantize_eq h, Guarded.quantize_eq_some h⟩

/-- Five grays, cut to three boxes in words. -/
theorem grays_exact :
    grays.length < 2 ^ 32 ∧ (histogram grays).Exact grays ∧
      quantize Perceptual.distance grays .two { count := 3, iterations := 0 } = .ok paired ∧
      Guarded.quantize Perceptual.distance grays .two { count := 3, iterations := 0 } =
        some (.ok paired) := by
  have hlength : grays.length < 2 ^ 32 := by decide
  obtain ⟨hexact, hwords, hguarded⟩ :=
    quantize_exact Perceptual.distance .two { count := 3, iterations := 0 } hlength
  rw [quantizeWith_grays] at hwords hguarded
  exact ⟨hlength, hexact, hwords, hguarded⟩

end Words

end PaletteBitmap

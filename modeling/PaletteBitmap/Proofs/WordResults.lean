import Mathlib
import PaletteBitmap.Proofs.WordRun

/-!
# Results of a run in machine words

What the quantizer yields in numbers without end, it yields in words of fixed sizes as long as a
word can count the pixels (`Words.quantize_eq`).  So quantizing again what was quantized changes
nothing there, colors are numbered by first use, and the cut is a partition.

The bound is not idle.  At 2³² pixels a count comes back to zero, and an entry that counts no pixels
has no mean: `Words.quantize_one_color` tells what becomes of an image of a single color.
-/

namespace PaletteBitmap

variable {dist : Perceptual → Perceptual → Float32} {pixels : List Rgba} {depth : BitDepth}
  {options : QuantizeOptions} {q : Quantized}

/-! ## Quantizing again -/

namespace Words

theorem foldl_add_replicate (c : Rgba) (n : Nat) :
    (List.replicate (n + 1) c).foldl Counting.add {} =
      ⟨Std.HashMap.insert ∅ c 0, #[⟨c, UInt32.ofNat (n + 1)⟩], Array.replicate (n + 1) 0⟩ := by
  induction n with
  | zero => simp [Counting.add, Counting.find]
  | succ n ih =>
      rw [List.replicate_succ', List.foldl_append, ih]
      simp [Counting.add, Counting.find, Array.replicate_succ]

theorem histogram_replicate (c : Rgba) (n : Nat) :
    histogram (List.replicate (n + 1) c) =
      ⟨#[⟨c, UInt32.ofNat (n + 1)⟩], Array.replicate (n + 1) 0⟩ := by
  rw [histogram, foldl_add_replicate]

/-- The only entry of an image is drawn in its mean, which a word that came back to zero makes
transparent. -/
theorem drawn_one (c : Rgba) (count : UInt32) :
    drawn [⟨c, count⟩] (Clustering.identity 1) =
      [if count.toNat = 0 then Rgba.transparent else c] := by
  have hfits : Guarded.Fits ([⟨c, count⟩].map Entry.read) (Clustering.identity 1).assignment
      (Clustering.identity 1).clusters :=
    ⟨by simp, by simpa [Guarded.population_eq_sum, Entry.read] using count.toNat_lt, rfl, by decide⟩
  have hmean : drawn [⟨c, count⟩] (Clustering.identity 1) =
      [(ColorSum.add {} c count.toNat).mean] := by
    rw [drawn_eq hfits]
    simp [Quantize.drawn, Clustering.sums, Clustering.identity, Entry.read]
  rw [hmean]
  split
  · next hzero =>
    rw [hzero]
    rfl
  · next hcount => rw [ColorSum.mean_single c (Nat.pos_of_ne_zero hcount)]

theorem numbering_singleton (c : Rgba) :
    numbering [c] = ⟨Std.HashMap.insert ∅ c 0, #[c], #[0]⟩ := by
  simp [numbering, Numbering.add]

/-- An image of one color is drawn in it, but is drawn transparent where its pixels are counted as
none. -/
theorem quantize_one_color (c : Rgba) {n : Nat} (hn : 0 < n)
    (hcount : options.count ≤ depth.capacity) :
    ∃ q, quantize dist (List.replicate n c) depth options = .ok q ∧
      q.palette.entries = [if n % 2 ^ 32 = 0 then Rgba.transparent else c] ∧
      q.indices = List.replicate n 0 := by
  obtain ⟨n, rfl⟩ := Nat.exists_eq_add_one.2 hn
  have hkept : options.count = 0 ∨ 1 ≤ options.count := by omega
  have hroom : ¬ (options.count = 0 ∧ depth.capacity < 1) := by
    cases depth <;> simp [BitDepth.capacity]
  have hdrawn := drawn_one c (UInt32.ofNat (n + 1))
  rw [UInt32.toNat_ofNat'] at hdrawn
  generalize (if (n + 1) % 2 ^ 32 = 0 then Rgba.transparent else c) = shade at hdrawn ⊢
  have hpalette := Palette.ofList_of_nodup (List.cons_ne_nil shade []) (List.nodup_singleton shade)
  refine ⟨⟨⟨[shade], List.cons_ne_nil shade [], List.nodup_singleton shade⟩,
    List.replicate (n + 1) 0⟩, ?_, rfl, rfl⟩
  rw [quantize, if_neg (Nat.not_lt.2 hcount), if_neg (by simp), histogram_replicate]
  simp only [List.size_toArray, List.length_singleton, if_neg hroom, cluster, if_pos hkept, draw,
    hdrawn, numbering_singleton, hpalette]
  simp

end Words

/-! ## Numbers by first use -/

open FirstUse Quantize

/-- The indices of a quantized image are numbered by first use, and there are as many palette
entries as numbers.  An entry is the color that the earliest pixel with none of the entries
before it is drawn in, which is the color of that pixel where all colors are kept.  The run in words
has the same result for all pixels that it can count. -/
theorem quantizeWith_numbered (h : quantizeWith dist pixels depth options = .ok q) :
    Numbered (q.indices.map UInt8.toNat) q.palette.size ∧
      (∀ k < q.palette.size, ∃ n,
        (q.indices.map UInt8.toNat).findIdx? (fun i => decide (k ≤ i)) = some n ∧
        (q.indices.map UInt8.toNat)[n]? = some k ∧
        q.palette.get? k = (picture dist pixels options)[n]? ∧
        (options.count = 0 ∨ pixels.toFinset.card ≤ options.count →
          q.palette.get? k = pixels[n]?)) ∧
      (pixels.length < 2 ^ 32 → Words.quantize dist pixels depth options = .ok q) := by
  refine ⟨numbered_indices h, fun k hk => exists_first_index h hk, ?_⟩
  intro hlength
  rw [Words.quantize_eq hlength, h]

theorem grays_numbered :
    quantizeWith Perceptual.distance grays .two { count := 3, iterations := 0 } = .ok paired ∧
      Words.quantize Perceptual.distance grays .two { count := 3, iterations := 0 } = .ok paired ∧
      Numbered [0, 1, 0, 1, 2] 3 ∧ ∃ n,
        [0, 1, 0, 1, 2].findIdx? (fun i => decide (2 ≤ i)) = some n ∧
        some ⟨120, 120, 120, 255⟩ =
          (picture Perceptual.distance grays { count := 3, iterations := 0 })[n]? := by
  obtain ⟨hnumbered, hentries, hwords⟩ := quantizeWith_numbered quantizeWith_grays
  obtain ⟨n, hfirst, -, hentry, -⟩ := hentries 2 (by decide)
  exact ⟨quantizeWith_grays, hwords (by decide), hnumbered, n, hfirst, hentry⟩

/-! ## The cut as a partition -/

namespace Clustering

variable {entries : List HistogramEntry} {maxBoxes : Nat}

/-- Entries of different colors, each with a pixel, are cut into as many clusters as asked for, or
into as many as there are entries if that is less.  The entries are divided among all of them: every
entry has one of the clusters, and every cluster has an entry.  Entries that count fewer than 2³²
pixels are cut alike in words. -/
theorem medianCut_partition (hne : entries ≠ []) (hcolors : (entries.map (·.color)).Nodup)
    (hcounts : ∀ e ∈ entries, 0 < e.count) (hmax : 1 ≤ maxBoxes) :
    (medianCut entries maxBoxes).clusters = min maxBoxes entries.length ∧
      Full entries.length (medianCut entries maxBoxes).clusters
        (medianCut entries maxBoxes).assignment ∧
      (Guarded.population entries < 2 ^ 32 → ∀ words : List Words.Entry,
        words.map Words.Entry.read = entries →
          Words.medianCut words maxBoxes = medianCut entries maxBoxes) := by
  refine ⟨clusters_medianCut hne hcolors hcounts hmax, full_medianCut hne hmax, ?_⟩
  rintro hpopulation words rfl
  exact Words.medianCut_eq hpopulation maxBoxes

/-- A black that nearly all pixels have, a gray close to it and two light ones. -/
def night : List HistogramEntry :=
  [(0, 1000), (8, 1), (240, 1), (255, 2)].map fun (v, n) => ⟨Rgba.solid v v v, n⟩

/-- The middle pixel is black, so black is cut off by itself, and what is left is cut once more. -/
theorem night_partition : night ≠ [] ∧ (night.map (·.color)).Nodup ∧ (∀ e ∈ night, 0 < e.count) ∧
    (medianCut night 3).clusters = 3 ∧ Full 4 3 (medianCut night 3).assignment ∧
    Words.medianCut (night.map fun e => ⟨e.color, UInt32.ofNat e.count⟩) 3 = medianCut night 3 := by
  have hne : night ≠ [] := by decide
  have hcolors : (night.map (·.color)).Nodup := by decide
  have hcounts : ∀ e ∈ night, 0 < e.count := by decide
  have hcut := medianCut_partition hne hcolors hcounts (show 1 ≤ 3 by decide)
  rcases hcut with ⟨hclusters, hfull, hwords⟩
  have hthree : (medianCut night 3).clusters = 3 := hclusters
  rw [hclusters] at hfull
  exact ⟨hne, hcolors, hcounts, hthree, hfull, hwords (by decide) _ (by decide)⟩

example : medianCut night 3 = ⟨[0, 1, 1, 2], 3⟩ := by cbv

end Clustering

end PaletteBitmap

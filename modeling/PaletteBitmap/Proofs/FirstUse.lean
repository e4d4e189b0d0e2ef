import Mathlib.Algebra.BigOperators.Group.List.Lemmas
import Mathlib.Algebra.GroupWithZero.Nat
import Mathlib.Data.Finset.Card
import PaletteBitmap.Histogram

/-!
# Order of first use

Histograms, and with them palettes, list colors in the order in which they first appear.  On
lists that order is `List.eraseDups`, and the number of a color is its `List.idxOf` there.

This module states how first use behaves under appending and mapping, and then says what a
histogram is in these words: `Histogram.entries_ofPixels` gives its entries with their counts,
`Histogram.pixelEntries_ofPixels` the entry of every pixel.  The hash map behind the count
does not show in either.
-/

namespace PaletteBitmap

namespace FirstUse

/-! ## One more element -/

theorem mem_concat_iff_of_mem {α : Type} {xs : List α} {x y : α} (h : x ∈ xs) :
    y ∈ xs ++ [x] ↔ y ∈ xs := by
  rw [List.mem_append, List.mem_singleton]
  constructor
  · rintro (hy | rfl)
    · exact hy
    · exact h
  · exact .inl

variable {α β : Type} [DecidableEq α] [DecidableEq β]

theorem eraseDups_concat_of_mem {xs : List α} {x : α} (h : x ∈ xs) :
    (xs ++ [x]).eraseDups = xs.eraseDups := by
  have hnone : [x].removeAll xs = [] := by
    simp [List.removeAll, h]
  rw [List.eraseDups_append, hnone, List.eraseDups_nil, List.append_nil]

theorem eraseDups_concat_of_notMem {xs : List α} {x : α} (h : x ∉ xs) :
    (xs ++ [x]).eraseDups = xs.eraseDups ++ [x] := by
  have hone : [x].removeAll xs = [x] := by
    simp [List.removeAll, h]
  rw [List.eraseDups_append, hone]
  simp [List.eraseDups_cons]

/-! ## Each element once -/

theorem nodup_eraseDups (xs : List α) : xs.eraseDups.Nodup := by
  induction xs using List.reverseRecOn with
  | nil => simp
  | append_singleton xs x ih =>
      by_cases h : x ∈ xs
      · rw [eraseDups_concat_of_mem h]
        exact ih
      · rw [eraseDups_concat_of_notMem h, List.nodup_append]
        refine ⟨ih, List.nodup_singleton x, ?_⟩
        intro y hy z hz hyz
        rw [List.mem_singleton] at hz
        rw [List.mem_eraseDups] at hy
        exact h (hz ▸ hyz ▸ hy)

theorem eraseDups_eq_nil_iff {xs : List α} : xs.eraseDups = [] ↔ xs = [] := by
  cases xs <;> simp [List.eraseDups_cons]

/-- The number of different elements does not depend on their order. -/
theorem length_eraseDups (xs : List α) : xs.eraseDups.length = xs.toFinset.card := by
  rw [← List.toFinset_card_of_nodup (nodup_eraseDups xs)]
  congr 1
  ext x
  simp

theorem length_eraseDups_le_of_subset (xs : List α) {ys : List α} (h : ∀ x ∈ xs, x ∈ ys) :
    xs.eraseDups.length ≤ ys.length := by
  have hsub : xs.eraseDups ⊆ ys := by
    intro x hx
    exact h x (List.mem_eraseDups.1 hx)
  exact ((nodup_eraseDups xs).subperm hsub).length_le

/-- Each element counted once for all of its uses, the uses come to the length of the list. -/
theorem sum_count_eraseDups (xs : List α) :
    (xs.eraseDups.map fun x => xs.count x).sum = xs.length := by
  have hperm : xs.eraseDups.Perm xs.dedup := by
    apply (List.perm_ext_iff_of_nodup (nodup_eraseDups xs) xs.nodup_dedup).2
    intro x
    rw [List.mem_eraseDups, List.mem_dedup]
  exact ((hperm.map _).sum_eq).trans (List.sum_map_count_dedup_eq_length xs)

/-- What is listed earlier in the order of first use is met earlier. -/
theorem pairwise_idxOf_eraseDups (xs : List α) :
    xs.eraseDups.Pairwise fun x y => xs.idxOf x < xs.idxOf y := by
  induction xs using List.reverseRecOn with
  | nil => simp
  | append_singleton xs z ih =>
      -- What was met before is where it was, whatever comes last.
      have hkept : xs.eraseDups.Pairwise fun x y => (xs ++ [z]).idxOf x < (xs ++ [z]).idxOf y := by
        apply ih.imp_of_mem
        intro x y hx hy hlt
        rwa [List.idxOf_append_of_mem (List.mem_eraseDups.1 hx),
          List.idxOf_append_of_mem (List.mem_eraseDups.1 hy)]
      by_cases hz : z ∈ xs
      · rw [eraseDups_concat_of_mem hz]
        exact hkept
      · rw [eraseDups_concat_of_notMem hz, List.pairwise_append]
        refine ⟨hkept, List.pairwise_singleton _ _, ?_⟩
        intro x hx y hy
        have hmem : x ∈ xs := List.mem_eraseDups.1 hx
        rw [List.mem_singleton.1 hy, List.idxOf_append_of_mem hmem, List.idxOf_append, if_neg hz]
        exact Nat.lt_of_lt_of_le (List.idxOf_lt_length_of_mem hmem) (Nat.le_add_left _ _)

/-! ## Images -/

/-- Only the first uses of a list decide the order of first use of its image. -/
theorem eraseDups_map (f : α → β) (xs : List α) :
    (xs.map f).eraseDups = (xs.eraseDups.map f).eraseDups := by
  induction xs using List.reverseRecOn with
  | nil => simp
  | append_singleton xs x ih =>
      rw [List.map_append, List.map_singleton]
      by_cases hx : x ∈ xs
      · rw [eraseDups_concat_of_mem hx, ← ih]
        exact eraseDups_concat_of_mem (List.mem_map_of_mem hx)
      · rw [eraseDups_concat_of_notMem hx, List.map_append, List.map_singleton]
        -- Even a new element may have an image that was there before.
        by_cases hf : f x ∈ xs.map f
        · have hf' : f x ∈ xs.eraseDups.map f := by
            obtain ⟨y, hy, hfy⟩ := List.mem_map.1 hf
            exact List.mem_map.2 ⟨y, List.mem_eraseDups.2 hy, hfy⟩
          rw [eraseDups_concat_of_mem hf, eraseDups_concat_of_mem hf', ih]
        · have hf' : f x ∉ xs.eraseDups.map f := by
            intro hm
            obtain ⟨y, hy, hfy⟩ := List.mem_map.1 hm
            exact hf (List.mem_map.2 ⟨y, List.mem_eraseDups.1 hy, hfy⟩)
          rw [eraseDups_concat_of_notMem hf, eraseDups_concat_of_notMem hf', ih]

/-! ## Numbers -/

theorem idxOf_eraseDups_lt {xs : List α} {x : α} (h : x ∈ xs) :
    xs.eraseDups.idxOf x < xs.eraseDups.length :=
  List.idxOf_lt_length_of_mem (List.mem_eraseDups.2 h)

theorem getElem?_idxOf_eraseDups {xs : List α} {x : α} (h : x ∈ xs) :
    xs.eraseDups[xs.eraseDups.idxOf x]? = some x := by
  rw [List.getElem?_eq_getElem (idxOf_eraseDups_lt h), List.getElem_idxOf]

/-! ## Lookups -/

omit [DecidableEq α] [DecidableEq β] in
theorem mapM_eq_some_map {f : α → Option β} {g : α → β} {xs : List α}
    (h : ∀ x ∈ xs, f x = some (g x)) : xs.mapM f = some (xs.map g) := by
  induction xs with
  | nil => rfl
  | cons x xs ih =>
      have hx : f x = some (g x) := h x List.mem_cons_self
      have hxs : xs.mapM f = some (xs.map g) := ih fun y hy => h y (List.mem_cons_of_mem x hy)
      simp [List.mapM_cons, hx, hxs]

end FirstUse

/-! ## Histograms -/

namespace Histogram

open FirstUse

namespace Counting

/-- A count that has seen some pixels and nothing else. -/
structure Counted (s : Counting) (pixels : List Rgba) : Prop where
  seen : ∀ c, s.seen[c]? = if c ∈ pixels then some (pixels.eraseDups.idxOf c) else none
  entries : s.entries.toList = pixels.eraseDups.map fun c => ⟨c, pixels.count c⟩
  pixelEntries : s.pixelEntries.toList = pixels.map fun c => pixels.eraseDups.idxOf c

theorem counted_start : Counted {} [] := by
  refine ⟨?_, rfl, rfl⟩
  intro c
  simp

variable {s : Counting} {pixels : List Rgba} {c : Rgba}

theorem Counted.add_of_mem (h : Counted s pixels) (hc : c ∈ pixels) :
    Counted (s.add c) (pixels ++ [c]) := by
  have hseen : s.seen[c]? = some (pixels.eraseDups.idxOf c) := by
    rw [h.seen, if_pos hc]
  have hdups : (pixels ++ [c]).eraseDups = pixels.eraseDups := eraseDups_concat_of_mem hc
  rw [add, hseen]
  refine ⟨?_, ?_, ?_⟩
  · intro d
    simp only [h.seen, hdups, mem_concat_iff_of_mem hc]
  · rw [Array.toList_modify, h.entries, hdups]
    apply List.ext_getElem
    · simp
    · intro i h₁ h₂
      have hi : i < pixels.eraseDups.length := by simpa using h₂
      -- Only the entry of `c` itself is touched, as no color has two entries.
      have hat : pixels.eraseDups.idxOf c = i ↔ pixels.eraseDups[i] = c := by
        constructor
        · intro e
          subst e
          exact List.getElem_idxOf hi
        · intro e
          subst e
          exact (nodup_eraseDups pixels).idxOf_getElem i hi
      rw [List.getElem_modify]
      simp only [List.getElem_map, List.count_append, List.count_singleton, beq_iff_eq, hat]
      split
      · next e => simp [e]
      · next e => simp [Ne.symm e]
  · simp [h.pixelEntries, hdups]

theorem Counted.add_of_notMem (h : Counted s pixels) (hc : c ∉ pixels) :
    Counted (s.add c) (pixels ++ [c]) := by
  have hseen : s.seen[c]? = none := by
    rw [h.seen, if_neg hc]
  have hsize : s.entries.size = pixels.eraseDups.length := by
    rw [← Array.length_toList, h.entries, List.length_map]
  have hdups : (pixels ++ [c]).eraseDups = pixels.eraseDups ++ [c] :=
    eraseDups_concat_of_notMem hc
  have hnew : c ∉ pixels.eraseDups := fun hm => hc (List.mem_eraseDups.1 hm)
  have hold : ∀ d ∈ pixels, (pixels.eraseDups ++ [c]).idxOf d = pixels.eraseDups.idxOf d := by
    intro d hd
    rw [List.idxOf_append, if_pos (List.mem_eraseDups.2 hd)]
  have hlast : (pixels.eraseDups ++ [c]).idxOf c = pixels.eraseDups.length := by
    rw [List.idxOf_append, if_neg hnew]
    simp
  rw [add, hseen]
  refine ⟨?_, ?_, ?_⟩
  · intro d
    rw [Std.HashMap.getElem?_insert, hdups]
    by_cases hd : c = d
    · subst hd
      simp [hsize, hlast]
    · -- The other colors are found where they were.
      have hmem : d ∈ pixels ++ [c] ↔ d ∈ pixels := by
        simp [Ne.symm hd]
      simp only [beq_iff_eq, if_neg hd, h.seen, hmem]
      split
      · next hp => rw [hold d hp]
      · rfl
  · -- One more pixel of `c` changes no other count, and `c` itself counts one.
    rw [Array.toList_push, h.entries, hdups, List.map_append, List.map_singleton]
    have hzero : pixels.count c = 0 := List.count_eq_zero.2 hc
    congr 1
    · apply List.map_congr_left
      intro d hd
      have hne : c ≠ d := fun e => hnew (e ▸ hd)
      simp [List.count_append, hne]
    · simp [List.count_append, hzero]
  · rw [Array.toList_push, h.pixelEntries, hdups, List.map_append, List.map_singleton, hlast,
      hsize]
    congr 1
    exact List.map_congr_left fun d hd => (hold d hd).symm

theorem Counted.add (h : Counted s pixels) (c : Rgba) : Counted (s.add c) (pixels ++ [c]) := by
  by_cases hc : c ∈ pixels
  · exact h.add_of_mem hc
  · exact h.add_of_notMem hc

/-- Counting pixel by pixel ends with all of them counted. -/
theorem counted_foldl (pixels : List Rgba) : Counted (pixels.foldl Counting.add {}) pixels := by
  induction pixels using List.reverseRecOn with
  | nil => exact counted_start
  | append_singleton pixels c ih =>
      rw [List.foldl_append]
      exact ih.add c

end Counting

variable (pixels : List Rgba)

/-- The entries are the colors in order of first use, each with its number of pixels. -/
theorem entries_ofPixels :
    (ofPixels pixels).entries.toList = pixels.eraseDups.map fun c => ⟨c, pixels.count c⟩ :=
  (Counting.counted_foldl pixels).entries

/-- Every pixel finds the entry of its color. -/
theorem pixelEntries_ofPixels :
    (ofPixels pixels).pixelEntries.toList = pixels.map fun c => pixels.eraseDups.idxOf c :=
  (Counting.counted_foldl pixels).pixelEntries

theorem entries_ofPixels_ne_nil {pixels : List Rgba} (h : pixels ≠ []) :
    (ofPixels pixels).entries.toList ≠ [] := by
  intro hnil
  rw [entries_ofPixels, List.map_eq_nil_iff, eraseDups_eq_nil_iff] at hnil
  exact h hnil

@[simp]
theorem colors_ofPixels : (ofPixels pixels).colors = pixels.eraseDups := by
  rw [colors, entries_ofPixels, List.map_map]
  exact List.map_id _

@[simp]
theorem size_ofPixels : (ofPixels pixels).size = pixels.eraseDups.length := by
  rw [size, ← Array.length_toList, entries_ofPixels, List.length_map]

end Histogram

end PaletteBitmap

import Mathlib
import PaletteBitmap.Proofs.Guards

/-!
# What a histogram tells

A histogram is kept in three tables at once while the pixels go by: where each color was put, how
often it was met, and which color every pixel had.  What the three come to is said here of the
pixels alone (`Histogram.Tallies`): the colors in the order in which they are met, how many pixels
have each, and for every pixel the place of its color.

There is but one histogram of which all this is true (`Tallies.eq_ofPixels`).  So the order in which
the hash map would list the colors is nowhere to be seen, nor anything else that is not in the
pixels.  With fewer than 2³² pixels all numbers fit words of 32 bits, and no place is looked up that
is not there.
-/

namespace PaletteBitmap

namespace Histogram

open FirstUse

variable {h : Histogram} {pixels : List Rgba}

/-- A histogram that tells of some pixels how many there are of each color, and where. -/
structure Tallies (h : Histogram) (pixels : List Rgba) : Prop where
  colors_nodup : h.colors.Nodup
  /-- Of two colors the one listed earlier has the earlier first pixel. -/
  ordered : h.colors.Pairwise fun c d => pixels.idxOf c < pixels.idxOf d
  count_eq : ∀ e ∈ h.entries, e.count = pixels.count e.color
  count_pos : ∀ e ∈ h.entries, 0 < e.count
  total : (h.entries.toList.map (·.count)).sum = pixels.length
  size_eq : h.pixelEntries.size = pixels.length
  /-- The entry that a pixel is told to have is there, and is that of its color. -/
  entry : ∀ (k : Nat) (c : Rgba), pixels[k]? = some c →
    ∃ (i : Nat) (e : HistogramEntry), h.pixelEntries[k]? = some i ∧ h.entries[i]? = some e ∧
      e.color = c

/-! ## The histogram of some pixels -/

theorem mem_entries_ofPixels {e : HistogramEntry} (he : e ∈ (ofPixels pixels).entries) :
    e.color ∈ pixels ∧ e.count = pixels.count e.color := by
  rw [← Array.mem_toList_iff, entries_ofPixels] at he
  rcases List.mem_map.1 he with ⟨c, hc, rfl⟩
  exact ⟨List.mem_eraseDups.1 hc, rfl⟩

theorem getElem?_entries_ofPixels {c : Rgba} (hc : c ∈ pixels) :
    (ofPixels pixels).entries[pixels.eraseDups.idxOf c]? = some ⟨c, pixels.count c⟩ := by
  rw [← Array.getElem?_toList, entries_ofPixels, List.getElem?_map, getElem?_idxOf_eraseDups hc,
    Option.map_some]

theorem tallies_ofPixels (pixels : List Rgba) : (ofPixels pixels).Tallies pixels where
  colors_nodup := by
    rw [colors_ofPixels]
    exact nodup_eraseDups pixels
  ordered := by
    rw [colors_ofPixels]
    exact pairwise_idxOf_eraseDups pixels
  count_eq := fun _ he => (mem_entries_ofPixels he).2
  count_pos := by
    intro e he
    rcases mem_entries_ofPixels he with ⟨hmem, hcount⟩
    rw [hcount]
    exact List.count_pos_iff.2 hmem
  total := by
    rw [entries_ofPixels, List.map_map]
    exact sum_count_eraseDups pixels
  size_eq := by
    rw [← Array.length_toList, pixelEntries_ofPixels, List.length_map]
  entry := by
    intro k c hk
    refine ⟨pixels.eraseDups.idxOf c, ⟨c, pixels.count c⟩, ?_, ?_, rfl⟩
    · rw [← Array.getElem?_toList, pixelEntries_ofPixels, List.getElem?_map, hk, Option.map_some]
    · exact getElem?_entries_ofPixels (List.mem_of_getElem? hk)

/-! ## No other histogram -/

theorem getElem?_colors {i : Nat} {e : HistogramEntry} (he : h.entries[i]? = some e) :
    h.colors[i]? = some e.color := by
  rw [colors, List.getElem?_map, Array.getElem?_toList, he, Option.map_some]

theorem Tallies.mem_colors_iff (ht : h.Tallies pixels) (c : Rgba) : c ∈ h.colors ↔ c ∈ pixels := by
  constructor
  · intro hc
    -- A color that no pixel has would have no count.
    rcases List.mem_map.1 hc with ⟨e, he, rfl⟩
    have hentry : e ∈ h.entries := Array.mem_toList_iff.1 he
    have hpos := ht.count_pos e hentry
    rw [ht.count_eq e hentry] at hpos
    exact List.count_pos_iff.1 hpos
  · intro hc
    rcases List.getElem?_of_mem hc with ⟨k, hk⟩
    rcases ht.entry k c hk with ⟨i, e, -, he, rfl⟩
    exact List.mem_of_getElem? (getElem?_colors he)

/-- The same colors in the order of their first pixels are the same list. -/
theorem Tallies.colors_eq (ht : h.Tallies pixels) : h.colors = pixels.eraseDups := by
  have hperm : h.colors.Perm pixels.eraseDups := by
    apply (List.perm_ext_iff_of_nodup ht.colors_nodup (nodup_eraseDups pixels)).2
    intro c
    rw [ht.mem_colors_iff, List.mem_eraseDups]
  apply hperm.eq_of_pairwise _ ht.ordered (pairwise_idxOf_eraseDups pixels)
  intro c d _ _ hlt hgt
  exact absurd hgt (Nat.lt_asymm hlt)

theorem Tallies.entries_eq (ht : h.Tallies pixels) : h.entries = (ofPixels pixels).entries := by
  apply Array.toList_inj.1
  -- A color and its count are all that there is in an entry.
  have hentries : h.entries.toList = h.colors.map fun c => ⟨c, pixels.count c⟩ := by
    have hentry : ∀ e ∈ h.entries.toList,
        (⟨e.color, pixels.count e.color⟩ : HistogramEntry) = e := by
      intro e he
      rw [← ht.count_eq e (Array.mem_toList_iff.1 he)]
    rw [colors, List.map_map]
    exact ((List.map_congr_left hentry).trans (List.map_id' _)).symm
  rw [hentries, entries_ofPixels, ht.colors_eq]

theorem Tallies.pixelEntries_eq (ht : h.Tallies pixels) :
    h.pixelEntries = (ofPixels pixels).pixelEntries := by
  apply Array.toList_inj.1
  apply List.ext_getElem?
  intro k
  rw [pixelEntries_ofPixels, List.getElem?_map, Array.getElem?_toList]
  cases hk : pixels[k]? with
  | none =>
      rw [Option.map_none, Array.getElem?_eq_none_iff, ht.size_eq]
      exact List.getElem?_eq_none_iff.1 hk
  | some c =>
      rcases ht.entry k c hk with ⟨i, e, hi, he, rfl⟩
      -- The color is listed once, so there is one place to find it at.
      have hcolor := getElem?_colors he
      rw [ht.colors_eq] at hcolor
      rcases List.getElem?_eq_some_iff.1 hcolor with ⟨hlt, hget⟩
      rw [hi, Option.map_some, ← hget, (nodup_eraseDups pixels).idxOf_getElem i hlt]

theorem Tallies.eq_ofPixels (ht : h.Tallies pixels) : h = ofPixels pixels := by
  have hentries := ht.entries_eq
  have hpixels := ht.pixelEntries_eq
  cases h
  simp only at hentries hpixels
  rw [hentries, hpixels]

/-! ## Main statement -/

/-- Fewer than 2³² pixels are counted with words of 32 bits, and what comes out tells of every color
how many pixels have it, in the order of the first pixels, and of every pixel which entry it has.
No other histogram tells the same. -/
theorem histogram_tallies (hlen : pixels.length < 2 ^ 32) :
    Guarded.histogram pixels = some (ofPixels pixels) ∧ (ofPixels pixels).Tallies pixels ∧
      ∀ h : Histogram, h.Tallies pixels → h = ofPixels pixels :=
  ⟨Guarded.histogram_eq_some hlen, tallies_ofPixels pixels, fun _ ht => ht.eq_ofPixels⟩

/-- Three colors, the first of them three times. -/
def pennant : List Rgba :=
  [9, 4, 9, 7, 4, 9].map fun v => Rgba.solid v 0 0

theorem pennant_tallied : pennant.length < 2 ^ 32 ∧
    Guarded.histogram pennant = some ⟨#[⟨Rgba.solid 9 0 0, 3⟩, ⟨Rgba.solid 4 0 0, 2⟩,
      ⟨Rgba.solid 7 0 0, 1⟩], #[0, 1, 0, 2, 1, 0]⟩ ∧ (ofPixels pennant).Tallies pennant := by
  have hlen : pennant.length < 2 ^ 32 := by decide
  have hpennant : ofPixels pennant = ⟨#[⟨Rgba.solid 9 0 0, 3⟩, ⟨Rgba.solid 4 0 0, 2⟩,
      ⟨Rgba.solid 7 0 0, 1⟩], #[0, 1, 0, 2, 1, 0]⟩ := by cbv
  rcases histogram_tallies hlen with ⟨hguarded, htallies, -⟩
  rw [hpennant] at hguarded
  exact ⟨hlen, hguarded, htallies⟩

end Histogram

end PaletteBitmap

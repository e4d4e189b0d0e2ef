import Mathlib
import PaletteBitmap.Proofs.Gamut

/-!
# Guarded steps

The library counts in numbers without end and looks things up in tables that answer always.  Here
are its sums and tables with guards instead: a position must be in its table, a number must fit
its word, and nothing is divided by zero.  A step that breaks a guard has no result.

Beside each guarded function stands the lemma that says when it has the result of the function
without guards.  For sums this is so as long as fewer than 2³² pixels are added up.
-/

namespace PaletteBitmap

namespace Guarded

open FirstUse

/-! ## Guards -/

/-- A number that fits a word of so many bits. -/
def word (bits n : Nat) : Option Nat :=
  if n < 2 ^ bits then some n else none

def difference (m n : Nat) : Option Nat :=
  if n ≤ m then some (m - n) else none

def quotient (m n : Nat) : Option Nat :=
  if n = 0 then none else some (m / n)

/-- Changes what is at a position of a table. -/
def change {α : Type} (xs : Array α) (i : Nat) (f : α → Option α) : Option (Array α) := do
  let x ← xs[i]?
  let y ← f x
  return xs.setIfInBounds i y

theorem word_eq_some {bits n : Nat} (h : n < 2 ^ bits) : word bits n = some n :=
  if_pos h

theorem difference_eq_some {m n : Nat} (h : n ≤ m) : difference m n = some (m - n) :=
  if_pos h

theorem quotient_eq_some {n : Nat} (h : 0 < n) (m : Nat) : quotient m n = some (m / n) :=
  if_neg (Nat.ne_of_gt h)

theorem change_eq_some {α : Type} {xs : Array α} {i : Nat} {x y : α} {f : α → Option α}
    (hx : xs[i]? = some x) (hy : f x = some y) : change xs i f = some (xs.setIfInBounds i y) := by
  rw [change, hx]
  simp only [Option.bind_eq_bind, Option.bind_some, hy, Option.pure_def]

theorem change_eq_modify {α : Type} {xs : Array α} {i : Nat} {x : α} {f : α → Option α} {g : α → α}
    (hx : xs[i]? = some x) (hg : f x = some (g x)) : change xs i f = some (xs.modify i g) := by
  rw [change_eq_some hx hg]
  congr 1
  apply Array.ext_getElem?
  intro j
  rw [Array.getElem?_setIfInBounds, Array.getElem?_modify]
  split
  · next hij =>
    subst hij
    obtain ⟨hi, -⟩ := Array.getElem?_eq_some_iff.1 hx
    rw [if_pos hi, hx]
    rfl
  · rfl

/-- Guards that hold at each step hold all the way, and what the steps keep is kept. -/
theorem foldlM_eq_some {σ α : Type} {f : σ → α → σ} {g : σ → α → Option σ}
    (P : List α → σ → Prop) {s : σ} {xs : List α} (start : P [] s)
    (next : ∀ before x after t, xs = before ++ x :: after → P before t →
      g t x = some (f t x) ∧ P (before ++ [x]) (f t x)) :
    xs.foldlM g s = some (xs.foldl f s) ∧ P xs (xs.foldl f s) := by
  suffices hrest : ∀ after before t, xs = before ++ after → P before t →
      after.foldlM g t = some (after.foldl f t) ∧ P xs (after.foldl f t) from
    hrest xs [] s rfl start
  intro after
  induction after with
  | nil =>
      intro before t hxs ht
      rw [List.append_nil] at hxs
      exact ⟨rfl, hxs ▸ ht⟩
  | cons x after ih =>
      intro before t hxs ht
      obtain ⟨hx, hkept⟩ := next before x after t hxs ht
      rw [List.foldlM_cons, hx, List.foldl_cons]
      exact ih (before ++ [x]) (f t x) (by simpa using hxs) hkept

/-! ## Counting colors -/

/-- Counts one more pixel. -/
def count (s : Histogram.Counting) (c : Rgba) : Option Histogram.Counting :=
  match s.seen[c]? with
  | some i => do
    let entries ← change s.entries i fun e => do
      return { e with count := ← word 32 (e.count + 1) }
    return ⟨s.seen, entries, s.pixelEntries.push i⟩
  | none => do
    let i ← word 32 s.entries.size
    return ⟨s.seen.insert c i, s.entries.push ⟨c, 1⟩, s.pixelEntries.push i⟩

def histogram (pixels : List Rgba) : Option Histogram := do
  let s ← pixels.foldlM count {}
  return ⟨s.entries, s.pixelEntries⟩

theorem count_eq_some {s : Histogram.Counting} {before : List Rgba}
    (h : Histogram.Counting.Counted s before) (hlen : before.length + 1 < 2 ^ 32) (c : Rgba) :
    count s c = some (s.add c) := by
  rw [count, Histogram.Counting.add, h.seen]
  by_cases hc : c ∈ before
  · -- What was seen has an entry, and that counts no more pixels than there were.
    have hentry : s.entries[before.eraseDups.idxOf c]? = some ⟨c, before.count c⟩ := by
      rw [← Array.getElem?_toList, h.entries, List.getElem?_map, getElem?_idxOf_eraseDups hc]
      rfl
    have hfits : before.count c + 1 < 2 ^ 32 := by
      have := List.count_le_length (a := c) (l := before)
      omega
    simp only [if_pos hc]
    rw [change_eq_modify (g := fun e => { e with count := e.count + 1 }) hentry]
    · rfl
    · simp only [word_eq_some hfits]
      rfl
  · -- There are no more entries than pixels, so the next position is a number that fits.
    have hsize : s.entries.size < 2 ^ 32 := by
      have hle := length_eraseDups_le_of_subset before fun _ hx => hx
      rw [← Array.length_toList, h.entries, List.length_map]
      omega
    simp only [if_neg hc, word_eq_some hsize]
    rfl

theorem histogram_eq_some {pixels : List Rgba} (h : pixels.length < 2 ^ 32) :
    histogram pixels = some (Histogram.ofPixels pixels) := by
  have hcount : pixels.foldlM count {} = some (pixels.foldl Histogram.Counting.add {}) := by
    apply (foldlM_eq_some (fun before s => Histogram.Counting.Counted s before)
      Histogram.Counting.counted_start _).1
    intro before c after s hpixels hs
    refine ⟨count_eq_some hs ?_ c, hs.add c⟩
    rw [hpixels, List.length_append, List.length_cons] at h
    omega
  rw [histogram, hcount]
  rfl

/-! ## Adding colors -/

def addChannel (s : ChannelSum) (v a n : Nat) : Option ChannelSum := do
  return ⟨← word 64 (s.weighted + v * a * n), ← word 64 (s.plain + v * n)⟩

def addColor (s : ColorSum) (c : Rgba) (n : Nat) : Option ColorSum := do
  let a := c.a.toNat
  return {
    red := ← addChannel s.red c.r.toNat a n
    green := ← addChannel s.green c.g.toNat a n
    blue := ← addChannel s.blue c.b.toNat a n
    alpha := ← word 64 (s.alpha + a * n)
    count := ← word 64 (s.count + n) }

def sums (entries : List HistogramEntry) (assignment : List Nat) (clusters : Nat) :
    Option (Array ColorSum) :=
  (entries.zip assignment).foldlM
    (fun sums (e, k) => change sums k fun s => addColor s e.color e.count)
    (Array.replicate clusters {})

/-- Sums of bytes: none is more than 255 times what it is divided by. -/
structure Bounded (s : ColorSum) : Prop where
  weighted : ∀ ch, (s.tint ch).weighted ≤ 255 * s.alpha
  plain : ∀ ch, (s.tint ch).plain ≤ 255 * s.count
  alpha : s.alpha ≤ 255 * s.count

theorem bounded_start : Bounded {} := by
  refine ⟨fun ch => ?_, fun ch => ?_, Nat.le_refl _⟩
  · cases ch <;> exact Nat.le_refl _
  · cases ch <;> exact Nat.le_refl _

theorem Bounded.add {s : ColorSum} (h : Bounded s) (c : Rgba) (n : Nat) : Bounded (s.add c n) := by
  -- What a sum grows by is a byte times what its divisor grows by.
  have hbyte : ∀ (v : UInt8) (m : Nat), v.toNat * m ≤ 255 * m := fun v m =>
    Nat.mul_le_mul_right m (Nat.le_of_lt_succ v.toNat_lt)
  refine ⟨fun ch => ?_, fun ch => ?_, ?_⟩
  · by_cases hch : ch = .alpha
    · subst hch
      exact Nat.zero_le _
    · rw [s.tint_add c n hch]
      have hold := h.weighted ch
      have hnew := hbyte (c.channel ch) (c.a.toNat * n)
      rw [← Nat.mul_assoc] at hnew
      change (s.tint ch).weighted + _ ≤ 255 * (s.alpha + c.a.toNat * n)
      omega
  · by_cases hch : ch = .alpha
    · subst hch
      exact Nat.zero_le _
    · rw [s.tint_add c n hch]
      have hold := h.plain ch
      have hnew := hbyte (c.channel ch) n
      change (s.tint ch).plain + _ ≤ 255 * (s.count + n)
      omega
  · have hold := h.alpha
    have hnew := hbyte c.a n
    change s.alpha + _ ≤ 255 * (s.count + n)
    omega

theorem addChannel_eq_some {s : ChannelSum} {v a n : Nat}
    (hweighted : (s.add v a n).weighted < 2 ^ 64) (hplain : (s.add v a n).plain < 2 ^ 64) :
    addChannel s v a n = some (s.add v a n) := by
  have hw : word 64 (s.weighted + v * a * n) = some (s.add v a n).weighted := word_eq_some hweighted
  have hp : word 64 (s.plain + v * n) = some (s.add v a n).plain := word_eq_some hplain
  simp only [addChannel, hw, hp]
  rfl

theorem addColor_eq_some {s : ColorSum} (h : Bounded s) (c : Rgba) {n : Nat}
    (hcount : s.count + n < 2 ^ 32) : addColor s c n = some (s.add c n) := by
  -- No sum is more than 255² times 2³².
  have hsum := h.add c n
  have hn : (s.add c n).count < 2 ^ 32 := hcount
  have halpha := hsum.alpha
  have hweighted : ∀ ch, ((s.add c n).tint ch).weighted < 2 ^ 64 := by
    intro ch
    have := hsum.weighted ch
    omega
  have hplain : ∀ ch, ((s.add c n).tint ch).plain < 2 ^ 64 := by
    intro ch
    have := hsum.plain ch
    omega
  have hred := addChannel_eq_some (hweighted .red) (hplain .red)
  have hgreen := addChannel_eq_some (hweighted .green) (hplain .green)
  have hblue := addChannel_eq_some (hweighted .blue) (hplain .blue)
  have halphaword : word 64 (s.alpha + c.a.toNat * n) = some (s.alpha + c.a.toNat * n) :=
    word_eq_some (show (s.add c n).alpha < 2 ^ 64 by omega)
  have hcountword : word 64 (s.count + n) = some (s.count + n) := word_eq_some (by omega)
  simp only [addColor, hred, hgreen, hblue, halphaword, hcountword]
  rfl

variable {entries : List HistogramEntry} {assignment : List Nat} {clusters : Nat}

/-- The pixels of all entries. -/
def population (entries : List HistogramEntry) : Nat := ColorSum.total (·.count) entries

/-- An assignment of one of the clusters to each of the entries, which are not too many, nor too
many pixels. -/
structure Fits (entries : List HistogramEntry) (assignment : List Nat) (clusters : Nat) :
    Prop where
  length_lt : entries.length < 2 ^ 32
  population_lt : population entries < 2 ^ 32
  length_eq : assignment.length = entries.length
  lt_clusters : ∀ k ∈ assignment, k < clusters

/-- What the sums of some clusters keep while pixels are added. -/
def Kept (clusters : Nat) (before : List (HistogramEntry × Nat)) (sums : Array ColorSum) : Prop :=
  sums.size = clusters ∧ ∀ s ∈ sums, Bounded s ∧ s.count ≤ population (before.map (·.1))

theorem kept_start (clusters : Nat) : Kept clusters [] (Array.replicate clusters {}) := by
  refine ⟨Array.size_replicate, fun s hs => ?_⟩
  rw [(Array.mem_replicate.1 hs).2]
  exact ⟨bounded_start, Nat.zero_le _⟩

theorem Kept.add {before : List (HistogramEntry × Nat)} {sums : Array ColorSum}
    (h : Kept clusters before sums) {e : HistogramEntry} {k : Nat} (hk : k < clusters)
    (hfits : population (before.map (·.1)) + e.count < 2 ^ 32) :
    change sums k (fun s => addColor s e.color e.count) =
        some (sums.modify k fun s => s.add e.color e.count) ∧
      Kept clusters (before ++ [(e, k)]) (sums.modify k fun s => s.add e.color e.count) := by
  have hpopulation : population ((before ++ [(e, k)]).map (·.1)) =
      population (before.map (·.1)) + e.count := by
    rw [List.map_append, population, ColorSum.total_append]
    exact congrArg _ (Nat.zero_add _)
  have hlt : k < sums.size := h.1 ▸ hk
  obtain ⟨hbounded, hcount⟩ := h.2 _ (Array.getElem_mem hlt)
  have hget := Array.getElem?_eq_getElem hlt
  refine ⟨change_eq_modify hget (addColor_eq_some hbounded e.color (by omega)), ?_, ?_⟩
  · rw [Array.size_modify, h.1]
  · rw [hpopulation]
    apply forall_mem_modify
    · intro s hs
      rw [hget] at hs
      cases hs
      exact ⟨hbounded.add e.color e.count, Nat.add_le_add_right hcount _⟩
    · intro s hs
      exact (h.2 s hs).imp_right Nat.le_add_right_of_le

/-- Every sum is one of bytes, and of fewer than 2³² pixels. -/
theorem sums_eq_some (h : Fits entries assignment clusters) :
    sums entries assignment clusters = some (Clustering.sums entries assignment clusters) ∧
      ∀ s ∈ Clustering.sums entries assignment clusters, Bounded s ∧ s.count < 2 ^ 32 := by
  have hzip : (entries.zip assignment).map (·.1) = entries :=
    List.map_fst_zip (Nat.le_of_eq h.length_eq.symm)
  have hrun : sums entries assignment clusters = some (Clustering.sums entries assignment clusters) ∧
      Kept clusters (entries.zip assignment) (Clustering.sums entries assignment clusters) := by
    refine foldlM_eq_some (Kept clusters) (kept_start clusters) ?_
    -- The entries up to this one are a part of all, so their pixels fit.
    rintro before ⟨e, k⟩ after t hpairs ht
    have hmem : (e, k) ∈ entries.zip assignment := by simp [hpairs]
    have hpopulation := h.population_lt
    rw [← hzip, hpairs, List.map_append, List.map_cons, population, ColorSum.total_append,
      ← List.singleton_append, ColorSum.total_append] at hpopulation
    have hone : ColorSum.total (·.count) [e] = e.count := Nat.zero_add _
    rw [hone] at hpopulation
    apply ht.add (h.lt_clusters k (List.of_mem_zip hmem).2)
    rw [population]
    omega
  refine ⟨hrun.1, fun s hs => ?_⟩
  obtain ⟨hbounded, hcount⟩ := hrun.2.2 s hs
  rw [hzip] at hcount
  exact ⟨hbounded, Nat.lt_of_le_of_lt hcount h.population_lt⟩

/-! ## Means -/

def rounded (sum divisor : Nat) : Option UInt8 := do
  let raised ← word 64 (sum + divisor / 2)
  let v ← quotient raised divisor
  return UInt8.ofNat (← word 8 v)

def channelMean (s : ColorSum) (c : ChannelSum) : Option UInt8 :=
  if 0 < s.alpha then rounded c.weighted s.alpha else rounded c.plain s.count

def mean (s : ColorSum) : Option Rgba :=
  if s.count = 0 then some Rgba.transparent
  else do
    return ⟨← channelMean s s.red, ← channelMean s s.green, ← channelMean s s.blue,
      ← rounded s.alpha s.count⟩

theorem rounded_eq_some {sum divisor : Nat} (hpos : 0 < divisor) (hlt : divisor < 2 ^ 48)
    (hsum : sum ≤ 255 * divisor) : rounded sum divisor = some (ColorSum.rounded sum divisor) := by
  have hle := ColorSum.rounded_quotient_le hpos hsum
  have hraised : word 64 (sum + divisor / 2) = some (sum + divisor / 2) := word_eq_some (by omega)
  have hbyte : word 8 ((sum + divisor / 2) / divisor) = some ((sum + divisor / 2) / divisor) :=
    word_eq_some (Nat.lt_succ_of_le hle)
  simp only [rounded, hraised, Option.bind_eq_bind, Option.bind_some, quotient_eq_some hpos, hbyte,
    ColorSum.rounded, Nat.min_eq_left hle]
  rfl

theorem mean_eq_some {s : ColorSum} (h : Bounded s) (hcount : s.count < 2 ^ 32) :
    mean s = some s.mean := by
  have halpha := h.alpha
  rw [mean, ColorSum.mean]
  split
  · rfl
  · next hzero =>
    have hpos : 0 < s.count := Nat.pos_of_ne_zero hzero
    have hchannel : ∀ ch, channelMean s (s.tint ch) = some (s.channelMean (s.tint ch)) := by
      intro ch
      rw [channelMean, ColorSum.channelMean]
      split
      · next hvisible => exact rounded_eq_some hvisible (by omega) (h.weighted ch)
      · exact rounded_eq_some hpos (by omega) (h.plain ch)
    have hred : channelMean s s.red = some (s.channelMean s.red) := hchannel .red
    have hgreen : channelMean s s.green = some (s.channelMean s.green) := hchannel .green
    have hblue : channelMean s s.blue = some (s.channelMean s.blue) := hchannel .blue
    simp only [hred, hgreen, hblue, rounded_eq_some hpos (by omega) halpha]
    rfl

/-! ## Points -/

def light (v : UInt8) : Option Float32 := Color.lightFloats[v.toNat]?

def point (c : Rgba) : Option Perceptual := do
  return ⟨Oklab.ofLinear ⟨← light c.r, ← light c.g, ← light c.b⟩, Float32.ofNat c.a.toNat / 255⟩

theorem light_eq_some (v : UInt8) : light v = some (Color.light v) := by
  have hlt : v.toNat < Color.lightFloats.size := by
    rw [Color.lightFloats, Array.size_map, Color.size_lightTable]
    exact v.toNat_lt
  rw [light, Color.light, Array.getD_eq_getD_getElem?, Array.getElem?_eq_getElem hlt]
  rfl

theorem point_eq_some (c : Rgba) : point c = some (Perceptual.ofRgba c) := by
  simp only [point, light_eq_some]
  rfl

end Guarded

end PaletteBitmap

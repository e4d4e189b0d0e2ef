import Mathlib
import PaletteBitmap.Proofs.GuardedRun

/-!
# Counting in machine words

The counts, sums and means of the quantizer in words of fixed sizes: counts of pixels and positions
of entries have 32 bits, sums have 64.  All operations on words wrap around, and a number that is
too big for a word is cut.

A word is read as the number that it has.  Where a guarded step has a result, its numbers fit their
words, and the same step in words is read as that result.  So nothing has to be known here of how
big the numbers can get: the guards tell.
-/

namespace PaletteBitmap

namespace Words

/-! ## Words and numbers -/

section Numbers

variable {m n : Nat}

theorem word_eq_some_iff {bits : Nat} : Guarded.word bits m = some n ↔ m < 2 ^ bits ∧ m = n := by
  rw [Guarded.word, Option.ite_none_right_eq_some, Option.some_inj]

theorem toNat_of_word32 (h : Guarded.word 32 m = some n) : (UInt32.ofNat m).toNat = n := by
  obtain ⟨hfits, rfl⟩ := word_eq_some_iff.1 h
  exact UInt32.toNat_ofNat_of_lt' hfits

theorem toNat_of_word64 (h : Guarded.word 64 m = some n) : (UInt64.ofNat m).toNat = n := by
  obtain ⟨hfits, rfl⟩ := word_eq_some_iff.1 h
  exact UInt64.toNat_ofNat_of_lt' hfits

/-- What holds of two states at the start and is kept by a guarded step and a plain one holds at the
end of a guarded run that has a result. -/
theorem foldl_of_foldlM {σ τ α : Type} {R : σ → τ → Prop} {f : σ → α → σ} {g : τ → α → Option τ}
    (step : ∀ {s t x t'}, R s t → g t x = some t' → R (f s x) t') {xs : List α} {s : σ} {t t' : τ}
    (start : R s t) (h : xs.foldlM g t = some t') : R (xs.foldl f s) t' := by
  induction xs generalizing s t with
  | nil =>
      cases h
      exact start
  | cons x xs ih =>
      rw [List.foldlM_cons] at h
      obtain ⟨u, hu, hrest⟩ := Option.bind_eq_some_iff.1 h
      exact ih (step start hu) hrest

/-- A guarded change reads as the plain one. -/
theorem map_modify_of_change {α β : Type} {read : α → β} {xs : Array α} {ys : Array β} {i : Nat}
    {f : α → α} {g : β → Option β} (hstep : ∀ x y, g (read x) = some y → read (f x) = y)
    (h : Guarded.change (xs.map read) i g = some ys) : (xs.modify i f).map read = ys := by
  obtain ⟨y, hy, hrest⟩ := Option.bind_eq_some_iff.1 h
  obtain ⟨z, hz, hys⟩ := Option.bind_eq_some_iff.1 hrest
  cases hys
  rw [Array.getElem?_map] at hy
  obtain ⟨x, hx, rfl⟩ := Option.map_eq_some_iff.1 hy
  obtain ⟨hi, -⟩ := Array.getElem?_eq_some_iff.1 hx
  -- Only one position differs, and what is there now is read as what the guard let through.
  apply Array.ext_getElem?
  intro j
  rw [Array.getElem?_map, Array.getElem?_modify, Array.getElem?_setIfInBounds, Array.size_map]
  split
  · next hij =>
    subst hij
    rw [hx, ← hstep x z hz]
    rfl
  · rw [Array.getElem?_map]

end Numbers

/-! ## Histograms -/

/-- A color and the number of pixels that have it. -/
structure Entry where
  color : Rgba
  count : UInt32
  deriving DecidableEq, Repr, Inhabited

def Entry.read (e : Entry) : HistogramEntry := ⟨e.color, e.count.toNat⟩

structure Table where
  entries : Array Entry
  pixelEntries : Array UInt32
  deriving DecidableEq, Repr

def Table.read (t : Table) : Histogram := ⟨t.entries.map Entry.read, t.pixelEntries.map UInt32.toNat⟩

structure Counting where
  seen : Std.HashMap Rgba UInt32 := ∅
  entries : Array Entry := #[]
  pixelEntries : Array UInt32 := #[]

namespace Counting

/-- The position of the entry of a color.  A color that has none is given one, without pixels. -/
def find (s : Counting) (c : Rgba) : Counting × UInt32 :=
  match s.seen[c]? with
  | some i => (s, i)
  | none =>
    let i := UInt32.ofNat s.entries.size
    ({ s with seen := s.seen.insert c i, entries := s.entries.push ⟨c, 0⟩ }, i)

def add (s : Counting) (c : Rgba) : Counting :=
  let (s, i) := s.find c
  { s with
    entries := s.entries.modify i.toNat fun e => { e with count := e.count + 1 }
    pixelEntries := s.pixelEntries.push i }

end Counting

def histogram (pixels : List Rgba) : Table :=
  let s := pixels.foldl Counting.add {}
  ⟨s.entries, s.pixelEntries⟩

/-- A count in words that is read as a count in numbers. -/
structure Counting.Reads (s : Counting) (t : Histogram.Counting) : Prop where
  seen : ∀ c : Rgba, s.seen[c]?.map UInt32.toNat = t.seen[c]?
  entries : s.entries.map Entry.read = t.entries
  pixelEntries : s.pixelEntries.map UInt32.toNat = t.pixelEntries

theorem Counting.reads_start : Counting.Reads {} {} :=
  ⟨fun c => by simp, Array.map_empty, Array.map_empty⟩

variable {s : Counting} {t t' : Histogram.Counting} {c : Rgba}

theorem Counting.Reads.add_of_seen (h : s.Reads t) {i : UInt32} (hseen : s.seen[c]? = some i)
    (hcount : Guarded.count t c = some t') : (s.add c).Reads t' := by
  have hfound : t.seen[c]? = some i.toNat := by
    rw [← h.seen, hseen]
    rfl
  rw [Guarded.count, hfound] at hcount
  obtain ⟨entries, hchange, ht'⟩ := Option.bind_eq_some_iff.1 hcount
  cases ht'
  simp only [add, find, hseen]
  refine ⟨h.seen, ?_, ?_⟩
  · rw [← h.entries] at hchange
    refine map_modify_of_change (f := fun e => { e with count := e.count + 1 }) ?_ hchange
    intro e y hy
    obtain ⟨n, hn, hy⟩ := Option.bind_eq_some_iff.1 hy
    cases hy
    have hword : e.count + 1 = UInt32.ofNat (e.count.toNat + 1) := by simp
    exact congrArg (HistogramEntry.mk e.color) ((congrArg _ hword).trans (toNat_of_word32 hn))
  · rw [Array.map_push, h.pixelEntries]

/-- A new entry counts the one pixel as soon as it has its place. -/
theorem Counting.Reads.add_of_new (h : s.Reads t) (hseen : s.seen[c]? = none)
    (hcount : Guarded.count t c = some t') : (s.add c).Reads t' := by
  have hnone : t.seen[c]? = none := by
    rw [← h.seen, hseen]
    rfl
  have hsize : t.entries.size = s.entries.size := by
    rw [← h.entries, Array.size_map]
  rw [Guarded.count, hnone] at hcount
  obtain ⟨i, hi, ht'⟩ := Option.bind_eq_some_iff.1 hcount
  cases ht'
  rw [hsize] at hi
  have hplace : (UInt32.ofNat s.entries.size).toNat = i := toNat_of_word32 hi
  have hlast : i = s.entries.size := (word_eq_some_iff.1 hi).2.symm
  simp only [add, find, hseen]
  refine ⟨?_, ?_, ?_⟩
  · intro d
    simp only [Std.HashMap.getElem?_insert]
    split
    · rw [← hplace]
      rfl
    · exact h.seen d
  · -- The entry has the last place, and the change of that place is the change of the entry.
    simp only [hplace, hlast, ← h.entries]
    apply Array.ext_getElem?
    intro j
    rw [Array.getElem?_map, Array.getElem?_modify, Array.getElem?_push, Array.getElem?_push,
      Array.size_map]
    rcases eq_or_ne s.entries.size j with rfl | hj
    · simp [Entry.read]
    · rw [if_neg hj, if_neg hj.symm, if_neg hj.symm, Array.getElem?_map]
  · simp only [Array.map_push, h.pixelEntries, hplace]

theorem Counting.Reads.add (h : s.Reads t) (hcount : Guarded.count t c = some t') :
    (s.add c).Reads t' := by
  cases hseen : s.seen[c]? with
  | some i => exact h.add_of_seen hseen hcount
  | none => exact h.add_of_new hseen hcount

theorem read_histogram_of_guarded {pixels : List Rgba} {picture : Histogram}
    (h : Guarded.histogram pixels = some picture) : (histogram pixels).read = picture := by
  obtain ⟨t, ht, hpicture⟩ := Option.bind_eq_some_iff.1 h
  cases hpicture
  have hreads : (pixels.foldl Counting.add {}).Reads t :=
    foldl_of_foldlM Counting.Reads.add Counting.reads_start ht
  rw [histogram, Table.read, hreads.entries, hreads.pixelEntries]

/-! ## Sums of colors -/

structure ChannelTotal where
  weighted : UInt64 := 0
  plain : UInt64 := 0
  deriving DecidableEq, Repr, Inhabited

def ChannelTotal.add (s : ChannelTotal) (v a n : UInt64) : ChannelTotal :=
  ⟨s.weighted + v * a * n, s.plain + v * n⟩

def ChannelTotal.read (s : ChannelTotal) : ChannelSum := ⟨s.weighted.toNat, s.plain.toNat⟩

structure ColorTotal where
  red : ChannelTotal := {}
  green : ChannelTotal := {}
  blue : ChannelTotal := {}
  alpha : UInt64 := 0
  count : UInt64 := 0
  deriving DecidableEq, Repr, Inhabited

def ColorTotal.read (s : ColorTotal) : ColorSum where
  red := s.red.read
  green := s.green.read
  blue := s.blue.read
  alpha := s.alpha.toNat
  count := s.count.toNat

def ColorTotal.add (s : ColorTotal) (c : Rgba) (count : UInt32) : ColorTotal :=
  let n := count.toUInt64
  let a := c.a.toUInt64
  { red := s.red.add c.r.toUInt64 a n
    green := s.green.add c.g.toUInt64 a n
    blue := s.blue.add c.b.toUInt64 a n
    alpha := s.alpha + a * n
    count := s.count + n }

def sums (entries : List Entry) (assignment : List Nat) (clusters : Nat) : Array ColorTotal :=
  (entries.zip assignment).foldl
    (fun sums (e, k) => sums.modify k fun s => s.add e.color e.count)
    (Array.replicate clusters {})

theorem ChannelTotal.read_add_of_guarded {s : ChannelTotal} {v a : UInt8} {n : UInt32}
    {t : ChannelSum} (h : Guarded.addChannel s.read v.toNat a.toNat n.toNat = some t) :
    (s.add v.toUInt64 a.toUInt64 n.toUInt64).read = t := by
  obtain ⟨w, hw, hrest⟩ := Option.bind_eq_some_iff.1 h
  obtain ⟨p, hp, ht⟩ := Option.bind_eq_some_iff.1 hrest
  cases ht
  -- Wrapping once at the end comes to the same as wrapping at every step.
  have hweighted : s.weighted + v.toUInt64 * a.toUInt64 * n.toUInt64 =
      UInt64.ofNat (s.read.weighted + v.toNat * a.toNat * n.toNat) := by simp [read]
  have hplain : s.plain + v.toUInt64 * n.toUInt64 =
      UInt64.ofNat (s.read.plain + v.toNat * n.toNat) := by simp [read]
  rw [add, hweighted, hplain]
  exact congrArg₂ ChannelSum.mk (toNat_of_word64 hw) (toNat_of_word64 hp)

theorem ColorTotal.read_add_of_guarded {s : ColorTotal} {c : Rgba} {n : UInt32} {t : ColorSum}
    (h : Guarded.addColor s.read c n.toNat = some t) : (s.add c n).read = t := by
  obtain ⟨red, hred, h⟩ := Option.bind_eq_some_iff.1 h
  obtain ⟨green, hgreen, h⟩ := Option.bind_eq_some_iff.1 h
  obtain ⟨blue, hblue, h⟩ := Option.bind_eq_some_iff.1 h
  obtain ⟨alpha, halpha, h⟩ := Option.bind_eq_some_iff.1 h
  obtain ⟨count, hcount, h⟩ := Option.bind_eq_some_iff.1 h
  cases h
  have halphas : s.alpha + c.a.toUInt64 * n.toUInt64 =
      UInt64.ofNat (s.read.alpha + c.a.toNat * n.toNat) := by simp [read]
  have hcounts : s.count + n.toUInt64 = UInt64.ofNat (s.read.count + n.toNat) := by simp [read]
  rw [add, halphas, hcounts]
  simp only [read, ChannelTotal.read_add_of_guarded hred, ChannelTotal.read_add_of_guarded hgreen,
    ChannelTotal.read_add_of_guarded hblue]
  exact congrArg₂ (ColorSum.mk red green blue) (toNat_of_word64 halpha) (toNat_of_word64 hcount)

theorem read_sums_of_guarded {entries : List Entry} {assignment : List Nat} {clusters : Nat}
    {totals : Array ColorSum}
    (h : Guarded.sums (entries.map Entry.read) assignment clusters = some totals) :
    (sums entries assignment clusters).map ColorTotal.read = totals := by
  rw [Guarded.sums, List.zip_map_left, List.foldlM_map] at h
  refine foldl_of_foldlM (R := fun (s : Array ColorTotal) t => s.map ColorTotal.read = t) ?_ ?_ h
  · rintro s _ ⟨e, k⟩ t' rfl hchange
    exact map_modify_of_change (fun _ _ => ColorTotal.read_add_of_guarded) hchange
  · rw [Array.map_replicate]
    rfl

/-! ## Means -/

def rounded (sum divisor : UInt64) : UInt8 := (min ((sum + divisor / 2) / divisor) 255).toUInt8

namespace ColorTotal

def channelMean (s : ColorTotal) (c : ChannelTotal) : UInt8 :=
  if 0 < s.alpha then rounded c.weighted s.alpha else rounded c.plain s.count

def mean (s : ColorTotal) : Rgba :=
  if s.count = 0 then Rgba.transparent
  else
    ⟨s.channelMean s.red, s.channelMean s.green, s.channelMean s.blue,
      rounded s.alpha s.count⟩

end ColorTotal

theorem rounded_of_guarded {sum divisor : UInt64} {v : UInt8}
    (h : Guarded.rounded sum.toNat divisor.toNat = some v) : rounded sum divisor = v := by
  obtain ⟨raised, hraised, h⟩ := Option.bind_eq_some_iff.1 h
  obtain ⟨q, hq, h⟩ := Option.bind_eq_some_iff.1 h
  obtain ⟨b, hb, h⟩ := Option.bind_eq_some_iff.1 h
  cases h
  have hsum : sum + divisor / 2 = UInt64.ofNat (sum.toNat + divisor.toNat / 2) := by
    apply UInt64.toNat_inj.1
    simp
  have hquotient : ((sum + divisor / 2) / divisor).toNat = q := by
    rw [Guarded.quotient, Option.ite_none_left_eq_some, Option.some_inj] at hq
    rw [UInt64.toNat_div, hsum, toNat_of_word64 hraised, hq.2]
  obtain ⟨hbyte, rfl⟩ := word_eq_some_iff.1 hb
  -- What fits a byte is left alone by the limit.
  have hlimit : (255 : UInt64).toNat = 255 := rfl
  apply UInt8.toNat_inj.1
  rw [rounded, UInt64.toNat_toUInt8, UInt64.toNat_min, hquotient, hlimit,
    UInt8.toNat_ofNat_of_lt' hbyte]
  omega

theorem channelMean_of_guarded {s : ColorTotal} {c : ChannelTotal} {v : UInt8}
    (h : Guarded.channelMean s.read c.read = some v) : s.channelMean c = v := by
  -- Both runs divide by the same sum, as a word is zero just where its number is.
  have hpos : 0 < s.alpha ↔ 0 < s.read.alpha := UInt64.lt_iff_toNat_lt
  rw [ColorTotal.channelMean]
  rw [Guarded.channelMean] at h
  split
  · next hvisible =>
    rw [if_pos (hpos.1 hvisible)] at h
    exact rounded_of_guarded h
  · next hinvisible =>
    rw [if_neg (fun hlt => hinvisible (hpos.2 hlt))] at h
    exact rounded_of_guarded h

theorem mean_of_guarded {s : ColorTotal} {c : Rgba} (h : Guarded.mean s.read = some c) :
    s.mean = c := by
  have hzero : s.count = 0 ↔ s.read.count = 0 := UInt64.toNat_inj.symm
  rw [Guarded.mean] at h
  rw [ColorTotal.mean]
  split
  · next hcount =>
    rw [if_pos (hzero.1 hcount)] at h
    cases h
    rfl
  · next hcount =>
    rw [if_neg (fun heq => hcount (hzero.2 heq))] at h
    obtain ⟨r, hr, h⟩ := Option.bind_eq_some_iff.1 h
    obtain ⟨g, hg, h⟩ := Option.bind_eq_some_iff.1 h
    obtain ⟨b, hb, h⟩ := Option.bind_eq_some_iff.1 h
    obtain ⟨a, ha, h⟩ := Option.bind_eq_some_iff.1 h
    cases h
    rw [channelMean_of_guarded hr, channelMean_of_guarded hg, channelMean_of_guarded hb,
      rounded_of_guarded ha]

end Words

end PaletteBitmap

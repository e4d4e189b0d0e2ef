import Mathlib.Data.List.Induction
import PaletteBitmap.Proofs.Refinement

/-!
# Means of clusters

The sums that `Clustering.sums` collects in one pass are those of the members of each cluster
taken by itself (`getElem?_sums`), so the mean of a cluster depends on its members only.  The
mean of pixels of a single color is that color, rounding included.
-/

namespace PaletteBitmap

namespace ColorSum

/-- The sums over some histogram entries. -/
def ofEntries (entries : List HistogramEntry) : ColorSum :=
  entries.foldl (fun s e => s.add e.color e.count) {}

theorem ofEntries_concat (entries : List HistogramEntry) (e : HistogramEntry) :
    ofEntries (entries ++ [e]) = (ofEntries entries).add e.color e.count := by
  rw [ofEntries, List.foldl_append]
  rfl

/-! ## One color -/

/-- A multiple of the divisor is divided exactly: half the divisor is not enough to round up. -/
theorem rounded_mul {divisor : Nat} (h : 0 < divisor) (v : UInt8) :
    rounded (v.toNat * divisor) divisor = v := by
  have hquot : (v.toNat * divisor + divisor / 2) / divisor = v.toNat := by
    rw [Nat.mul_comm, Nat.mul_add_div h, Nat.div_eq_of_lt (Nat.div_lt_self h (by decide)),
      Nat.add_zero]
  have hmax : min v.toNat 255 = v.toNat := Nat.min_eq_left (Nat.le_of_lt_succ v.toNat_lt)
  rw [rounded, hquot, hmax, UInt8.ofNat_toNat]

theorem mean_single (c : Rgba) {n : Nat} (h : 0 < n) : (ColorSum.add {} c n).mean = c := by
  have hcount : (ColorSum.add {} c n).count = n := Nat.zero_add n
  have halpha : (ColorSum.add {} c n).alpha = c.a.toNat * n := Nat.zero_add _
  have hchannel : ∀ v : UInt8, (ColorSum.add {} c n).channelMean
      (ChannelSum.add {} v.toNat c.a.toNat n) = v := by
    intro v
    rw [channelMean, hcount, halpha]
    -- Weighted by alpha or not, the sum is a multiple of what it is divided by.
    split
    · next hpos =>
      have hweighted : (ChannelSum.add {} v.toNat c.a.toNat n).weighted =
          v.toNat * (c.a.toNat * n) := by
        rw [← Nat.mul_assoc]
        exact Nat.zero_add _
      rw [hweighted, rounded_mul hpos]
    · have hplain : (ChannelSum.add {} v.toNat c.a.toNat n).plain = v.toNat * n :=
        Nat.zero_add _
      rw [hplain, rounded_mul h]
  rw [mean, hcount, if_neg (Nat.ne_of_gt h), halpha, rounded_mul h]
  exact Rgba.mk.injEq .. |>.mpr ⟨hchannel c.r, hchannel c.g, hchannel c.b, rfl⟩

end ColorSum

namespace Clustering

/-! ## Members of a cluster -/

/-- The entries that an assignment puts into a cluster. -/
def membersIn (pairs : List (HistogramEntry × Nat)) (k : Nat) : List HistogramEntry :=
  (pairs.filter fun p => p.2 == k).map (·.1)

variable (entries : List HistogramEntry) (assignment : List Nat) (clusters : Nat)

theorem getElem?_sums (k : Nat) : (sums entries assignment clusters)[k]? =
    if k < clusters then some (ColorSum.ofEntries (membersIn (entries.zip assignment) k))
    else none := by
  rw [sums]
  induction entries.zip assignment using List.reverseRecOn with
  | nil =>
      rw [List.foldl_nil, Array.getElem?_replicate]
      rfl
  | append_singleton pairs p ih =>
      rw [List.foldl_append, List.foldl_cons, List.foldl_nil, Array.getElem?_modify, ih]
      -- Only the sums of the cluster that the pair belongs to change.
      by_cases hp : p.2 = k
      · have hmembers : membersIn (pairs ++ [p]) k = membersIn pairs k ++ [p.1] := by
          simp [membersIn, hp]
        rw [if_pos hp, hmembers, ColorSum.ofEntries_concat]
        split
        · rfl
        · rfl
      · have hmembers : membersIn (pairs ++ [p]) k = membersIn pairs k := by
          simp [membersIn, hp]
        rw [if_neg hp, hmembers]

theorem getD_means (k : Nat) (hk : k < clusters) :
    ((sums entries assignment clusters).map ColorSum.mean).getD k Rgba.transparent =
      (ColorSum.ofEntries (membersIn (entries.zip assignment) k)).mean := by
  rw [Array.getD_eq_getD_getElem?, Array.getElem?_map, getElem?_sums, if_pos hk]
  rfl

/-! ## Every entry by itself -/

/-- Where every entry is its own cluster, the entry is its only member. -/
theorem membersIn_identity {k : Nat} {e : HistogramEntry} (h : entries[k]? = some e) :
    membersIn (entries.zip (List.range entries.length)) k = [e] := by
  have hfilter : (entries.zip (List.range entries.length)).filter (fun p => p.2 == k) =
      [(e, k)] := by
    induction entries using List.reverseRecOn with
    | nil => simp at h
    | append_singleton entries last ih =>
        rw [List.length_append, List.length_singleton, List.range_succ,
          List.zip_append (by simp), List.filter_append]
        -- The entry asked for is the last one, or it was there before.
        by_cases hlast : k = entries.length
        · subst hlast
          have hnone : (entries.zip (List.range entries.length)).filter
              (fun p => p.2 == entries.length) = [] := by
            rw [List.filter_eq_nil_iff]
            intro p hp
            have hlt := List.mem_range.1 (List.of_mem_zip hp).2
            simpa using Nat.ne_of_lt hlt
          have he : last = e := by simpa using h
          rw [hnone, he]
          simp
        · have hlt : k < entries.length := by
            obtain ⟨hk, -⟩ := List.getElem?_eq_some_iff.1 h
            rw [List.length_append, List.length_singleton] at hk
            omega
          rw [List.getElem?_append_left hlt] at h
          rw [ih h]
          simp [Ne.symm hlast]
  rw [membersIn, hfilter]
  rfl

end Clustering

end PaletteBitmap

import Mathlib
import PaletteBitmap.Proofs.Quantization

/-!
# Numbers by first use

An element that comes for the first time gets the next free number, and keeps it.  On a list
that is `FirstUse.numbers`; what it means to be numbered so, without saying which elements are
numbered, is `FirstUse.Numbered`.

The indices of a quantized image are numbers of this kind, although they are not handed out
pixel by pixel: they come from a scan of the histogram in which clusters of one mean are
merged.  So every palette entry is the color of the earliest pixel that it could be.
-/

namespace PaletteBitmap

namespace FirstUse

variable {α : Type} [DecidableEq α]

/-- The number of every element of a list. -/
def numbers (xs : List α) : List Nat :=
  xs.map fun x => xs.eraseDups.idxOf x

/-- Zero comes first, no number is skipped, and there are `n` different ones. -/
structure Numbered (numbers : List Nat) (n : Nat) : Prop where
  head : numbers.head? = some 0
  next : ∀ before i after m, numbers = before ++ i :: after → before.max? = some m → i ≤ m + 1
  size : ∃ m, numbers.max? = some m ∧ n = m + 1

/-! ## What comes later -/

/-- What comes later takes no number away. -/
theorem idxOf_eraseDups_append {xs : List α} {x : α} (h : x ∈ xs) (ys : List α) :
    (xs ++ ys).eraseDups.idxOf x = xs.eraseDups.idxOf x := by
  rw [List.eraseDups_append, List.idxOf_append, if_pos (List.mem_eraseDups.2 h)]

/-- A new element gets the next free number. -/
theorem idxOf_eraseDups_new {xs : List α} {x : α} (h : x ∉ xs) (ys : List α) :
    (xs ++ x :: ys).eraseDups.idxOf x = xs.eraseDups.length := by
  have hmem : x ∈ xs ++ [x] := List.mem_append_right xs (List.mem_singleton_self x)
  have hnew : x ∉ xs.eraseDups := fun hx => h (List.mem_eraseDups.1 hx)
  have hsplit : xs ++ x :: ys = (xs ++ [x]) ++ ys := by simp
  rw [hsplit, idxOf_eraseDups_append hmem, eraseDups_concat_of_notMem h, List.idxOf_append,
    if_neg hnew]
  simp

theorem numbers_append (xs ys : List α) :
    numbers (xs ++ ys) = numbers xs ++ ys.map fun y => (xs ++ ys).eraseDups.idxOf y := by
  rw [numbers, List.map_append, numbers]
  congr 1
  exact List.map_congr_left fun x hx => idxOf_eraseDups_append hx ys

theorem idxOf_eraseDups_le (xs : List α) (x : α) (ys : List α) :
    (xs ++ x :: ys).eraseDups.idxOf x ≤ xs.eraseDups.length := by
  by_cases h : x ∈ xs
  · rw [idxOf_eraseDups_append h]
    exact Nat.le_of_lt (idxOf_eraseDups_lt h)
  · exact Nat.le_of_eq (idxOf_eraseDups_new h ys)

/-! ## The largest number -/

theorem lt_of_mem_numbers {xs : List α} {i : Nat} (h : i ∈ numbers xs) :
    i < xs.eraseDups.length := by
  obtain ⟨x, hx, rfl⟩ := List.mem_map.1 h
  exact idxOf_eraseDups_lt hx

theorem mem_numbers_of_lt {xs : List α} {k : Nat} (h : k < xs.eraseDups.length) :
    k ∈ numbers xs := by
  refine List.mem_map.2 ⟨xs.eraseDups[k], List.mem_eraseDups.1 (List.getElem_mem h), ?_⟩
  exact (nodup_eraseDups xs).idxOf_getElem k h

theorem exists_max_numbers {xs : List α} (h : xs ≠ []) :
    ∃ m, (numbers xs).max? = some m ∧ xs.eraseDups.length = m + 1 := by
  have hpos : 0 < xs.eraseDups.length :=
    List.length_pos_iff.2 fun hnil => h (eraseDups_eq_nil_iff.1 hnil)
  refine ⟨xs.eraseDups.length - 1, ?_, by omega⟩
  rw [List.max?_eq_some_iff]
  refine ⟨mem_numbers_of_lt (by omega), ?_⟩
  intro i hi
  exact Nat.le_sub_one_of_lt (lt_of_mem_numbers hi)

/-! ## Numbering -/

theorem numbered_numbers {xs : List α} (h : xs ≠ []) :
    Numbered (numbers xs) xs.eraseDups.length where
  head := by
    cases xs with
    | nil => exact absurd rfl h
    | cons x xs => simp [numbers, List.eraseDups_cons]
  next := by
    intro before i after m hsplit hmax
    obtain ⟨ys, zs, rfl, hbefore, hrest⟩ := List.map_eq_append_iff.1 hsplit
    obtain ⟨x, zs, rfl, rfl, -⟩ := List.map_eq_cons_iff.1 hrest
    have hys : numbers ys = before := by
      rw [← hbefore]
      exact List.map_congr_left fun y hy => (idxOf_eraseDups_append hy _).symm
    -- The numbers before it are those of a list of their own, so their largest is known.
    have hne : ys ≠ [] := by
      rintro rfl
      rw [← hys] at hmax
      cases hmax
    obtain ⟨m', hmax', hlen⟩ := exists_max_numbers hne
    rw [hys, hmax] at hmax'
    obtain rfl := Option.some.inj hmax'
    rw [← hlen]
    exact idxOf_eraseDups_le ys x zs
  size := exists_max_numbers h

/-- The first element whose number is not below `k` has the number `k`. -/
theorem exists_first_number {xs : List α} {k : Nat} (h : k < xs.eraseDups.length) :
    ∃ n, (numbers xs).findIdx? (fun i => decide (k ≤ i)) = some n ∧
      (numbers xs)[n]? = some k ∧ xs[n]? = xs.eraseDups[k]? := by
  have hnumber : xs.eraseDups.idxOf xs.eraseDups[k] = k := (nodup_eraseDups xs).idxOf_getElem k h
  have hmem : xs.eraseDups[k] ∈ xs := List.mem_eraseDups.1 (List.getElem_mem h)
  rw [List.getElem?_eq_getElem h]
  generalize xs.eraseDups[k] = x at hnumber hmem
  obtain ⟨ys, zs, rfl, hnew⟩ := List.eq_append_cons_of_mem hmem
  rw [idxOf_eraseDups_new hnew] at hnumber
  -- All before the first use of `x` have smaller numbers.
  have hsmall : (numbers ys).findIdx? (fun i => decide (k ≤ i)) = none := by
    rw [List.findIdx?_eq_none_iff]
    intro i hi
    have hlt := lt_of_mem_numbers hi
    rw [hnumber] at hlt
    simpa using hlt
  have hlen : (numbers ys).length = ys.length := by rw [numbers, List.length_map]
  rw [numbers_append, List.map_cons, idxOf_eraseDups_new hnew, hnumber]
  refine ⟨ys.length, ?_, ?_, ?_⟩
  · rw [List.findIdx?_append, hsmall, List.findIdx?_cons, if_pos (decide_eq_true (Nat.le_refl k))]
    simp [hlen]
  · rw [List.getElem?_append_right (Nat.le_of_eq hlen), hlen, Nat.sub_self, List.getElem?_cons_zero]
  · simp

end FirstUse

open FirstUse

/-- The indices, stored in bytes, are the numbers of the colors of the picture. -/
theorem Quantized.Draws.toNat_indices {q : Quantized} {picture : List Rgba}
    (h : q.Draws picture) (hsize : q.palette.size ≤ 256) :
    q.indices.map UInt8.toNat = numbers picture := by
  rw [h.indices, List.map_map]
  exact List.map_congr_left fun c hc => h.toNat_number hsize hc

open Quantize

variable {dist : Perceptual → Perceptual → Float32} {pixels : List Rgba} {depth : BitDepth}
  {options : QuantizeOptions} {q : Quantized}

/-- The indices of a quantized image are numbered by first use, and there are as many palette
entries as numbers. -/
theorem numbered_indices (h : quantizeWith dist pixels depth options = .ok q) :
    Numbered (q.indices.map UInt8.toNat) q.palette.size := by
  have hdraws := draws_of_quantizeWith h
  have hne : picture dist pixels options ≠ [] := fun hnil =>
    (accepts_of_quantizeWith h).ne_nil (List.map_eq_nil_iff.1 hnil)
  rw [hdraws.toNat_indices (size_le_256 h), hdraws.size_eq]
  exact numbered_numbers hne

/-- A palette entry is the color that the earliest pixel with none of the entries before it is
drawn in, which is the color of that pixel where all colors are kept. -/
theorem exists_first_index (h : quantizeWith dist pixels depth options = .ok q) {k : Nat}
    (hk : k < q.palette.size) : ∃ n,
      (q.indices.map UInt8.toNat).findIdx? (fun i => decide (k ≤ i)) = some n ∧
      (q.indices.map UInt8.toNat)[n]? = some k ∧
      q.palette.get? k = (picture dist pixels options)[n]? ∧
      (options.count = 0 ∨ pixels.toFinset.card ≤ options.count →
        q.palette.get? k = pixels[n]?) := by
  have hdraws := draws_of_quantizeWith h
  rw [hdraws.size_eq] at hk
  rw [hdraws.toNat_indices (size_le_256 h)]
  obtain ⟨n, hfirst, hnumber, hcolor⟩ := exists_first_number hk
  have hentry : q.palette.get? k = (picture dist pixels options)[n]? := by
    rw [Palette.get?, hdraws.entries, hcolor]
  refine ⟨n, hfirst, hnumber, hentry, ?_⟩
  intro hfits
  rw [← length_eraseDups] at hfits
  rw [hentry, picture_of_fits dist hfits]

/-- Two tight pairs of grays in turns, and one between them. -/
def grays : List Rgba :=
  [0, 250, 2, 248, 120].map fun v => Rgba.solid v v v

/-- Each pair of `grays` in its mean. -/
def paired : Quantized :=
  ⟨⟨[⟨1, 1, 1, 255⟩, ⟨249, 249, 249, 255⟩, ⟨120, 120, 120, 255⟩], by decide, by decide⟩,
    [0, 1, 0, 1, 2]⟩

theorem quantizeWith_grays :
    quantizeWith Perceptual.distance grays .two { count := 3, iterations := 0 } = .ok paired := by
  have hmedian : Clustering.medianCut (Histogram.ofPixels grays).entries.toList 3 =
      ⟨[0, 2, 0, 2, 1], 3⟩ := by cbv
  -- The cuts are computed by themselves: without rounds no distance is measured.
  have hcluster : cluster Perceptual.distance (Histogram.ofPixels grays).entries.toList
      { count := 3, iterations := 0 } = ⟨[0, 2, 0, 2, 1], 3⟩ := by
    rw [cluster, if_neg (by cbv)]
    simp only [hmedian]
    rfl
  have haccepts : Accepts grays .two { count := 3, iterations := 0 } :=
    ⟨by decide, by decide, by decide⟩
  rw [haccepts.quantizeWith_eq, hcluster]
  cbv

end PaletteBitmap

import Mathlib
import PaletteBitmap.Proofs.Boxes
import PaletteBitmap.Proofs.Guards

/-!
# A guarded median cut

The boxes of the median cut with guards.  A guarded box only trusts the positions of its members:
their colors and counts are looked up among the entries each time.  No guard is broken because the
members of all boxes stay entries of the histogram (`Listed`), because what a box counts is counted
but once, and because only a box with two members is ever chosen to be split.
-/

namespace PaletteBitmap

namespace Guarded

variable {entries : List HistogramEntry}

/-- The box of some members, whose entries are looked up. -/
def box (entries : List HistogramEntry) (members : List Member) : Option ColorBox := do
  let (population, extent) ← members.foldlM
    (fun (population, extent) m => do
      let e ← entries[m.position]?
      return (← word 64 (population + e.count), Extent.add extent e.color))
    (0, Extent.nothing)
  return ⟨members, population, extent⟩

def score (b : ColorBox) : Option Nat :=
  if b.members.length < 2 then some 0
  else word 64 (b.extent.width b.extent.widest * b.population)

def reach (entries : List HistogramEntry) (half running : Nat) : List Member → Option Nat
  | [] => some 0
  | m :: rest => do
    let e ← entries[m.position]?
    let running ← word 64 (running + e.count)
    if half ≤ running then return 1
    else return (← reach entries half running rest) + 1

def split (entries : List HistogramEntry) (b : ColorBox) : Option (ColorBox × ColorBox) := do
  let _ ← b.members.mapM fun m => entries[m.position]?
  let sorted := ColorBox.sortBy b.extent.widest b.members
  let reached ← reach entries ((b.population + 1) / 2) 0 sorted
  -- A cut between one and the length less one needs two members.
  let last ← difference sorted.length 1
  let _ ← difference last 1
  let k := max 1 (min reached last)
  let _ ← difference sorted.length k
  return (← box entries (sorted.take k), ← box entries (sorted.drop k))

def splitTimes (entries : List HistogramEntry) : Nat → List ColorBox → Option (List ColorBox)
  | 0, boxes => some boxes
  | n + 1, boxes => do
    let _ ← boxes.mapM score
    match ColorBox.best? boxes with
    | none => return boxes
    | some i =>
      let b ← boxes[i]?
      let (lower, upper) ← split entries b
      splitTimes entries n (boxes.take i ++ lower :: upper :: boxes.drop (i + 1))

def mark (assignment : Array Nat) (cluster : Nat) (b : ColorBox) : Option (Array Nat) :=
  b.members.foldlM (fun a m => change a m.position fun _ => some cluster) assignment

def medianCut (entries : List HistogramEntry) (maxBoxes : Nat) : Option Clustering :=
  if entries.isEmpty || maxBoxes == 0 then some ⟨[], 0⟩
  else do
    let first ← box entries (Clustering.membersOf entries)
    let boxes ← splitTimes entries (maxBoxes - 1) [first]
    let assignment ← boxes.zipIdx.foldlM (fun a (b, i) => mark a i b)
      (Array.replicate entries.length 0)
    return ⟨assignment.toList, boxes.length⟩

/-- A member that is the entry at its position. -/
def Listed (entries : List HistogramEntry) (m : Member) : Prop :=
  entries[m.position]? = some ⟨m.color, m.count⟩

/-- Listed members, fewer than 2³² pixels of them. -/
structure Boxable (entries : List HistogramEntry) (members : List Member) : Prop where
  listed : ∀ m ∈ members, Listed entries m
  population_lt : ColorBox.populationOf members < 2 ^ 32

/-- A box made of such members. -/
structure Boxed (entries : List HistogramEntry) (b : ColorBox) : Prop where
  eq_ofMembers : b = ColorBox.ofMembers b.members
  boxable : Boxable entries b.members

section Members

variable {members more : List Member}

theorem Boxable.perm (h : Boxable entries members) (hperm : more.Perm members) :
    Boxable entries more := by
  refine ⟨fun m hm => h.listed m (hperm.mem_iff.1 hm), ?_⟩
  rw [ColorBox.populationOf_perm hperm]
  exact h.population_lt

theorem Boxable.of_append (h : Boxable entries (members ++ more)) :
    Boxable entries members ∧ Boxable entries more := by
  have hpopulation := h.population_lt
  rw [ColorBox.populationOf_append] at hpopulation
  constructor
  · exact ⟨fun m hm => h.listed m (List.mem_append_left more hm), by omega⟩
  · exact ⟨fun m hm => h.listed m (List.mem_append_right members hm), by omega⟩

theorem Boxable.boxed (h : Boxable entries members) : Boxed entries (ColorBox.ofMembers members) :=
  ⟨rfl, h⟩

end Members

theorem listed_membersOf (entries : List HistogramEntry) :
    ∀ m ∈ Clustering.membersOf entries, Listed entries m := by
  intro m hm
  obtain ⟨⟨e, i⟩, he, rfl⟩ := List.mem_map.1 hm
  exact List.mem_zipIdx_iff_getElem?.1 he

theorem population_eq_sum (entries : List HistogramEntry) :
    population entries = (entries.map (·.count)).sum := by
  induction entries using List.reverseRecOn with
  | nil => rfl
  | append_singleton entries e ih =>
      rw [population, ColorSum.total_concat, List.map_append, List.sum_append, ← ih]
      rfl

theorem populationOf_membersOf (entries : List HistogramEntry) :
    ColorBox.populationOf (Clustering.membersOf entries) = population entries := by
  rw [population_eq_sum]
  -- The entries are looked at through their members.
  conv_rhs => rw [← Clustering.map_entry_membersOf entries, List.map_map]
  rfl

theorem boxable_membersOf (h : population entries < 2 ^ 32) :
    Boxable entries (Clustering.membersOf entries) := by
  refine ⟨listed_membersOf entries, ?_⟩
  rwa [populationOf_membersOf]

theorem box_eq_some {members : List Member} (h : Boxable entries members) :
    box entries members = some (ColorBox.ofMembers members) := by
  have hrun : members.foldlM (fun ((p, x) : Nat × Extent) m => do
      let e ← entries[m.position]?
      return (← word 64 (p + e.count), x.add e.color)) (0, Extent.nothing) =
        some (members.foldl (fun (p, x) m => (p + m.count, x.add m.color)) (0, Extent.nothing)) ∧
      members.foldl (fun (p, x) m => (p + m.count, x.add m.color)) (0, Extent.nothing) =
        (ColorBox.populationOf members, ColorBox.extentOf members) := by
    apply foldlM_eq_some fun before t =>
      t = (ColorBox.populationOf before, ColorBox.extentOf before)
    · rfl
    · rintro before m after _ hmembers rfl
      -- The members up to this one are a part of all, so their pixels fit.
      have hpart : Boxable entries (before ++ [m]) := by
        rw [hmembers, List.append_cons] at h
        exact h.of_append.1
      have hsum := hpart.population_lt
      rw [ColorBox.populationOf_concat] at hsum
      have hentry : entries[m.position]? = some ⟨m.color, m.count⟩ := hpart.listed m (by simp)
      have hword : word 64 (ColorBox.populationOf before + m.count) = some _ :=
        word_eq_some (by omega)
      rw [ColorBox.populationOf_concat, ColorBox.extentOf_concat, hentry]
      simp only [Option.bind_eq_bind, Option.bind_some, hword, Option.pure_def, and_self]
  rw [box, hrun.1, hrun.2]
  rfl

variable {b : ColorBox}

theorem Boxed.population_eq (h : Boxed entries b) :
    b.population = ColorBox.populationOf b.members := by
  rw [h.eq_ofMembers]
  rfl

theorem score_eq_some (h : Boxed entries b) : score b = some b.score := by
  rw [score, ColorBox.score]
  split
  · rfl
  · have hwidth : b.extent.width b.extent.widest ≤ 255 :=
      Nat.le_trans (Nat.sub_le _ _) (Nat.le_of_lt_succ (UInt8.toNat_lt _))
    have hpopulation := h.boxable.population_lt
    rw [← h.population_eq] at hpopulation
    have hproduct := Nat.mul_le_mul_right b.population hwidth
    exact word_eq_some (by omega)

theorem reach_eq_some {half running : Nat} {members : List Member}
    (hlisted : ∀ m ∈ members, Listed entries m)
    (hsum : running + ColorBox.populationOf members < 2 ^ 64) :
    reach entries half running members = some (ColorBox.reach half running members) := by
  induction members generalizing running with
  | nil => rfl
  | cons m rest ih =>
      have hpopulation : ColorBox.populationOf (m :: rest) = m.count + ColorBox.populationOf rest :=
        rfl
      have hentry : entries[m.position]? = some ⟨m.color, m.count⟩ := hlisted m List.mem_cons_self
      have hword : word 64 (running + m.count) = some (running + m.count) :=
        word_eq_some (by omega)
      rw [reach, ColorBox.reach, hentry]
      simp only [Option.bind_eq_bind, Option.bind_some, hword]
      split
      · rfl
      · rw [ih (fun m' hm' => hlisted m' (List.mem_cons_of_mem m hm')) (by omega)]
        rfl

/-- A box with two members is split in two boxes. -/
theorem split_eq_some (h : Boxed entries b) (hlen : 2 ≤ b.members.length) :
    split entries b = some b.split ∧ Boxed entries b.split.1 ∧ Boxed entries b.split.2 := by
  have hkeys : b.members.mapM (fun m => entries[m.position]?) =
      some (b.members.map fun m => ⟨m.color, m.count⟩) :=
    FirstUse.mapM_eq_some_map h.boxable.listed
  have hperm := ColorBox.sortBy_perm b.extent.widest b.members
  have hsorted := h.boxable.perm hperm
  have hlength := hperm.length_eq
  rw [split, ColorBox.split, hkeys]
  generalize ColorBox.sortBy b.extent.widest b.members = sorted at *
  have hreach : reach entries ((b.population + 1) / 2) 0 sorted =
      some (ColorBox.reach ((b.population + 1) / 2) 0 sorted) := by
    have hpopulation := hsorted.population_lt
    exact reach_eq_some hsorted.listed (by omega)
  have hcut : max 1 (min (ColorBox.reach ((b.population + 1) / 2) 0 sorted) (sorted.length - 1)) =
      ColorBox.cut b.population sorted := rfl
  have hle : ColorBox.cut b.population sorted ≤ sorted.length := by
    rw [← hcut]
    omega
  -- Wherever the cut is, either side of it can be boxed.
  rw [← List.take_append_drop (ColorBox.cut b.population sorted) sorted] at hsorted
  obtain ⟨hlower, hupper⟩ := hsorted.of_append
  simp only [Option.bind_eq_bind, Option.bind_some, hreach,
    difference_eq_some (show 1 ≤ sorted.length by omega),
    difference_eq_some (show 1 ≤ sorted.length - 1 by omega), hcut, difference_eq_some hle,
    box_eq_some hlower, box_eq_some hupper]
  exact ⟨rfl, hlower.boxed, hupper.boxed⟩

/-! ## The loop of splits -/

theorem splitTimes_eq_some (n : Nat) {boxes : List ColorBox} (h : ∀ b ∈ boxes, Boxed entries b) :
    splitTimes entries n boxes = some (ColorBox.splitTimes n boxes) ∧
      ∀ b ∈ ColorBox.splitTimes n boxes, Boxed entries b := by
  induction n generalizing boxes with
  | zero => exact ⟨rfl, h⟩
  | succ n ih =>
      have hscores : boxes.mapM score = some (boxes.map ColorBox.score) :=
        FirstUse.mapM_eq_some_map fun b hb => score_eq_some (h b hb)
      rw [splitTimes, ColorBox.splitTimes, hscores]
      cases hbest : ColorBox.best? boxes with
      | none => exact ⟨rfl, h⟩
      | some i =>
          -- What is chosen has a score, so it has two members.
          obtain ⟨b, hb, hlen⟩ := ColorBox.exists_of_best? hbest
          obtain ⟨hsplit, hlower, hupper⟩ := split_eq_some (h b (List.mem_of_getElem? hb)) hlen
          have hnext : ∀ c ∈ ColorBox.splitAt boxes i, Boxed entries c := by
            intro c hc
            rcases ColorBox.mem_splitAt hb hc with hold | rfl | rfl
            · exact h c hold
            · exact hlower
            · exact hupper
          have hrest := ih hnext
          rw [ColorBox.splitAt_of_getElem? hb] at hrest
          simp only [Option.bind_eq_bind, Option.bind_some, hb, hsplit,
            ColorBox.splitAt_of_getElem? hb]
          exact hrest

theorem mark_eq_some {assignment : Array Nat} (hsize : assignment.size = entries.length)
    (cluster : Nat) (h : Boxed entries b) :
    mark assignment cluster b = some (Clustering.mark assignment cluster b) := by
  rw [mark, Clustering.mark]
  refine (foldlM_eq_some (fun _ a => a.size = entries.length) hsize ?_).1
  intro before m after a hmembers ha
  have hlisted : entries[m.position]? = some ⟨m.color, m.count⟩ :=
    h.boxable.listed m (by simp [hmembers])
  obtain ⟨hlt, -⟩ := List.getElem?_eq_some_iff.1 hlisted
  refine ⟨?_, by rw [Array.size_setIfInBounds, ha]⟩
  exact change_eq_some (Array.getElem?_eq_getElem (ha ▸ hlt)) rfl

theorem medianCut_eq_some (h : population entries < 2 ^ 32) (maxBoxes : Nat) :
    medianCut entries maxBoxes = some (Clustering.medianCut entries maxBoxes) := by
  have hmembers := boxable_membersOf h
  have hfirst : ∀ b ∈ [ColorBox.ofMembers (Clustering.membersOf entries)], Boxed entries b := by
    intro b hb
    rw [List.mem_singleton] at hb
    exact hb ▸ hmembers.boxed
  obtain ⟨hboxes, hboxed⟩ := splitTimes_eq_some (maxBoxes - 1) hfirst
  rw [medianCut, Clustering.medianCut]
  split
  · rfl
  · simp only [Option.bind_eq_bind, box_eq_some hmembers, Option.bind_some, hboxes]
    generalize ColorBox.splitTimes (maxBoxes - 1)
      [ColorBox.ofMembers (Clustering.membersOf entries)] = boxes at hboxed
    have hmarks : boxes.zipIdx.foldlM (fun a (b, i) => mark a i b)
        (Array.replicate entries.length 0) = some (boxes.zipIdx.foldl
          (fun a (b, i) => Clustering.mark a i b) (Array.replicate entries.length 0)) := by
      refine (foldlM_eq_some (fun _ a => a.size = entries.length) Array.size_replicate ?_).1
      -- A mark leaves the table as long as it was.
      rintro before ⟨b, i⟩ after a hpairs ha
      have hmem : (b, i) ∈ boxes.zipIdx := by simp [hpairs]
      have hb := hboxed b (List.fst_mem_of_mem_zipIdx hmem)
      exact ⟨mark_eq_some ha i hb, by rw [Clustering.size_mark, ha]⟩
    rw [hmarks]
    rfl

end Guarded

end PaletteBitmap

import Mathlib
import PaletteBitmap.Proofs.Boxes
import PaletteBitmap.Proofs.MedianCut

/-!
# The median cut as a partition

The boxes of the median cut divide the entries at every stage: each entry is in one box, and each
box has an entry (`ColorBox.Divides`).  The first box does, and a split puts the members of one box
into two that are not empty.

How many boxes there are in the end follows from when the splits stop.  A box with two members has
two colors, so it counts for something and can be chosen; there is nothing to choose only when every
box is down to one entry.  So there are as many boxes as asked for, or as many as there are entries.

Since no two boxes share an entry, what one writes into the assignment no other writes over, and the
number of every box is found there.

Counts are numbers of any size here.  `Words.medianCut` is the same cut in words of 64 bits, which
are enough for the pixels of an image.
-/

namespace PaletteBitmap

namespace ColorBox

/-! ## Boxes that divide some members -/

/-- Members of different colors, all of which have been seen. -/
structure Varied (members : List Member) : Prop where
  colors_nodup : (members.map (·.color)).Nodup
  count_pos : ∀ m ∈ members, 0 < m.count

/-- Boxes that have some members between them, and each of them at least one. -/
structure Divides (boxes : List ColorBox) (members : List Member) : Prop where
  perm : (boxes.flatMap (·.members)).Perm members
  eq_ofMembers : ∀ b ∈ boxes, b = ofMembers b.members
  ne_nil : ∀ b ∈ boxes, b.members ≠ []

variable {boxes : List ColorBox} {members : List Member} {b : ColorBox} {i : Nat}

/-- Different colors are wide apart on some channel, so two members are enough for a score. -/
theorem Varied.score_pos (h : Varied members) (hlen : 2 ≤ members.length) :
    0 < (ofMembers members).score := by
  match members, hlen with
  | m :: n :: rest, _ =>
      have hcolor : m.color ≠ n.color := by
        intro heq
        have hnodup := h.colors_nodup
        simp [heq] at hnodup
      exact ColorBox.score_pos (by simp) (by simp) hcolor (h.count_pos m (by simp))

theorem Divides.mem_of_mem (h : Divides boxes members) (hb : b ∈ boxes) {m : Member}
    (hm : m ∈ b.members) : m ∈ members :=
  h.perm.mem_iff.1 (List.mem_flatMap.2 ⟨b, hb, hm⟩)

theorem Divides.varied (h : Divides boxes members) (hvaried : Varied members) (hb : b ∈ boxes) :
    Varied b.members where
  colors_nodup := by
    have hall : (boxes.flatMap fun b => b.members.map (·.color)).Nodup := by
      rw [← List.map_flatMap]
      exact (h.perm.map _).nodup_iff.2 hvaried.colors_nodup
    exact (List.nodup_flatMap.1 hall).1 b hb
  count_pos := fun m hm => hvaried.count_pos m (h.mem_of_mem hb hm)

theorem divides_single (hne : members ≠ []) : Divides [ofMembers members] members where
  perm := by simp [ofMembers]
  eq_ofMembers := by
    intro b hb
    rw [List.mem_singleton.1 hb]
    rfl
  ne_nil := by
    intro b hb
    rw [List.mem_singleton.1 hb]
    exact hne

/-! ## How many boxes there can be -/

theorem Divides.sum_lengths (h : Divides boxes members) :
    (boxes.map fun b => b.members.length).sum = members.length := by
  rw [← List.length_flatMap]
  exact h.perm.length_eq

theorem Divides.length_le (h : Divides boxes members) : boxes.length ≤ members.length := by
  have hone : ∀ n ∈ boxes.map fun b => b.members.length, 1 ≤ n := by
    intro n hn
    rcases List.mem_map.1 hn with ⟨b, hb, rfl⟩
    exact List.length_pos_iff.2 (h.ne_nil b hb)
  simpa [h.sum_lengths] using List.length_le_sum_of_one_le _ hone

/-- When there is nothing to split, every member has a box of its own. -/
theorem Divides.length_eq (h : Divides boxes members) (hvaried : Varied members)
    (hbest : best? boxes = none) : boxes.length = members.length := by
  have hone : ∀ n ∈ boxes.map fun b => b.members.length, n ≤ 1 := by
    intro n hn
    rcases List.mem_map.1 hn with ⟨b, hb, rfl⟩
    -- A box with more members would have a score, and would be there to split.
    by_contra hmore
    have hscore := (h.varied hvaried hb).score_pos (by omega)
    rw [← h.eq_ofMembers b hb, score_eq_zero_of_best? hbest b hb] at hscore
    exact Nat.lt_irrefl 0 hscore
  have hle : members.length ≤ boxes.length := by
    simpa [h.sum_lengths] using List.sum_le_card_nsmul _ 1 hone
  exact Nat.le_antisymm h.length_le hle

/-! ## Splits -/

/-- A split keeps the members together and leaves no half empty. -/
theorem Divides.splitAt (h : Divides boxes members) (hb : boxes[i]? = some b)
    (hlen : 2 ≤ b.members.length) : Divides (splitAt boxes i) members where
  perm := by
    rcases List.getElem?_eq_some_iff.1 hb with ⟨hi, rfl⟩
    have hboxes : boxes.take i ++ boxes[i] :: boxes.drop (i + 1) = boxes := by
      rw [List.getElem_cons_drop, List.take_append_drop]
    have hhalves := (split_perm boxes[i]).append_right
      ((boxes.drop (i + 1)).flatMap (·.members))
    rw [splitAt_of_getElem? hb]
    calc
      ((boxes.take i ++ boxes[i].split.1 :: boxes[i].split.2 :: boxes.drop (i + 1)).flatMap
          (·.members)).Perm
          ((boxes.take i ++ boxes[i] :: boxes.drop (i + 1)).flatMap (·.members)) := by
        simpa only [List.flatMap_append, List.flatMap_cons, List.append_assoc] using
          hhalves.append_left _
      _ = boxes.flatMap (·.members) := by rw [hboxes]
      List.Perm _ members := h.perm
  eq_ofMembers := by
    intro c hc
    rcases mem_splitAt hb hc with hold | rfl | rfl
    · exact h.eq_ofMembers c hold
    · rfl
    · rfl
  ne_nil := by
    intro c hc
    rcases mem_splitAt hb hc with hold | rfl | rfl
    · exact h.ne_nil c hold
    · exact (split_ne_nil hlen).1
    · exact (split_ne_nil hlen).2

theorem Divides.splitTimes (h : Divides boxes members) (n : Nat) :
    Divides (splitTimes n boxes) members := by
  apply splitTimes_induction (P := fun boxes => Divides boxes members)
  · intro boxes i hbest hdivides
    rcases exists_of_best? hbest with ⟨b, hb, hlen⟩
    exact hdivides.splitAt hb hlen
  · exact h

/-- Boxes are split as often as asked for, unless the members run out first. -/
theorem Divides.length_splitTimes (h : Divides boxes members) (hvaried : Varied members) (n : Nat) :
    (ColorBox.splitTimes n boxes).length = min (boxes.length + n) members.length := by
  induction n generalizing boxes with
  | zero => exact (Nat.min_eq_left h.length_le).symm
  | succ n ih =>
      rw [ColorBox.splitTimes]
      cases hbest : best? boxes with
      | none =>
          -- The splits stop early, but only when there are as many boxes as members.
          have hlen := h.length_eq hvaried hbest
          simp only
          omega
      | some i =>
          rcases exists_of_best? hbest with ⟨b, hb, hlen⟩
          simp only
          rw [ih (h.splitAt hb hlen), length_splitAt hb]
          congr 1
          omega

end ColorBox

namespace Clustering

/-! ## Numbers of boxes -/

/-- An assignment of one of `clusters` numbers to each of `n` entries that leaves none out. -/
structure Full (n clusters : Nat) (assignment : List Nat) : Prop where
  length_eq : assignment.length = n
  lt_clusters : ∀ k ∈ assignment, k < clusters
  held : ∀ k < clusters, k ∈ assignment

theorem Full.clusters_le {n clusters : Nat} {assignment : List Nat}
    (h : Full n clusters assignment) : clusters ≤ n := by
  have hsub : List.range clusters ⊆ assignment := fun k hk => h.held k (List.mem_range.1 hk)
  simpa [h.length_eq] using List.nodup_range.length_le_of_subset hsub

variable {n : Nat} {boxes : List ColorBox}

theorem assignment_ofBoxes_concat (n : Nat) (boxes : List ColorBox) (last : ColorBox) :
    (ofBoxes n (boxes ++ [last])).assignment =
      (mark (ofBoxes n boxes).assignment.toArray boxes.length last).toList := by
  simp [ofBoxes, List.zipIdx_append]

@[simp]
theorem length_assignment_ofBoxes (n : Nat) (boxes : List ColorBox) :
    (ofBoxes n boxes).assignment.length = n := by
  rw [ofBoxes, Array.length_toList]
  apply List.foldlRecOn (motive := fun a : Array Nat => a.size = n)
  · exact Array.size_replicate
  · rintro a ha ⟨box, i⟩ -
    rw [size_mark, ha]

/-- A member is given the number of its box, if no position is in two boxes. -/
theorem getElem?_assignment_ofBoxes
    (hnodup : (boxes.flatMap fun b => b.members.map (·.position)).Nodup)
    {b : ColorBox} {k : Nat} (hb : boxes[k]? = some b) {m : Member} (hm : m ∈ b.members)
    (hlt : m.position < n) : (ofBoxes n boxes).assignment[m.position]? = some k := by
  induction boxes using List.reverseRecOn with
  | nil => simp at hb
  | append_singleton boxes last ih =>
      rw [List.flatMap_append, List.flatMap_singleton, List.nodup_append] at hnodup
      rcases hnodup with ⟨hbefore, -, hapart⟩
      have hmark := getElem?_mark (ofBoxes n boxes).assignment.toArray boxes.length last m.position
      rw [assignment_ofBoxes_concat, Array.getElem?_toList, hmark]
      have hposition : m.position ∈ b.members.map (·.position) := List.mem_map_of_mem hm
      rcases List.getElem?_eq_some_iff.1 hb with ⟨hk, -⟩
      rw [List.length_append, List.length_singleton, Nat.lt_succ_iff_lt_or_eq] at hk
      rcases hk with hk | rfl
      · -- What an earlier box wrote is not written over.
        rw [List.getElem?_append_left hk] at hb
        have hother : m.position ∉ last.members.map (·.position) := by
          intro hmem
          refine hapart m.position ?_ m.position hmem rfl
          exact List.mem_flatMap.2 ⟨b, List.mem_of_getElem? hb, hposition⟩
        simpa [hother] using ih hbefore hb
      · rw [List.getElem?_concat_length] at hb
        cases hb
        simp [hposition, hlt]

variable {entries : List HistogramEntry} {maxBoxes : Nat}

/-! ## Boxes of entries -/

theorem varied_membersOf (hcolors : (entries.map (·.color)).Nodup)
    (hcounts : ∀ e ∈ entries, 0 < e.count) : ColorBox.Varied (membersOf entries) where
  colors_nodup := by
    rw [← map_entry_membersOf entries, List.map_map] at hcolors
    exact hcolors
  count_pos := by
    intro m hm
    rw [← map_entry_membersOf entries] at hcounts
    exact hcounts _ (List.mem_map_of_mem hm)

theorem length_membersOf (entries : List HistogramEntry) :
    (membersOf entries).length = entries.length := by
  simpa using congrArg List.length (map_position_membersOf entries)

theorem membersOf_ne_nil (hne : entries ≠ []) : membersOf entries ≠ [] := by
  rw [← List.length_pos_iff, length_membersOf]
  exact List.length_pos_iff.2 hne

/-- A member has the number of its box, where the boxes divide the entries. -/
theorem getElem?_assignment_of_divides (h : ColorBox.Divides boxes (membersOf entries))
    {b : ColorBox} {k : Nat} (hb : boxes[k]? = some b) {m : Member} (hm : m ∈ b.members) :
    (ofBoxes entries.length boxes).assignment[m.position]? = some k := by
  have hpositions : ((boxes.flatMap (·.members)).map (·.position)).Perm
      (List.range entries.length) := by
    rw [← map_position_membersOf]
    exact h.perm.map _
  have hnodup : (boxes.flatMap fun b => b.members.map (·.position)).Nodup := by
    rw [← List.map_flatMap]
    exact hpositions.nodup_iff.2 List.nodup_range
  have hmember : m ∈ boxes.flatMap (·.members) :=
    List.mem_flatMap.2 ⟨b, List.mem_of_getElem? hb, hm⟩
  have hlt : m.position < entries.length :=
    List.mem_range.1 (hpositions.mem_iff.1 (List.mem_map_of_mem hmember))
  exact getElem?_assignment_ofBoxes hnodup hb hm hlt

/-- Boxes that divide the entries are all found in their assignment. -/
theorem mem_assignment_ofBoxes (h : ColorBox.Divides boxes (membersOf entries)) {k : Nat}
    (hk : k < boxes.length) : k ∈ (ofBoxes entries.length boxes).assignment := by
  -- Any member of the box will do.
  rcases List.exists_mem_of_ne_nil _ (h.ne_nil boxes[k] (List.getElem_mem hk)) with ⟨m, hm⟩
  exact List.mem_of_getElem?
    (getElem?_assignment_of_divides h (List.getElem?_eq_getElem hk) hm)

theorem divides_medianCut (hne : entries ≠ []) (n : Nat) :
    ColorBox.Divides (ColorBox.splitTimes n [ColorBox.ofMembers (membersOf entries)])
      (membersOf entries) :=
  (ColorBox.divides_single (membersOf_ne_nil hne)).splitTimes n

/-- Every cluster of a median cut has an entry. -/
theorem full_medianCut (hne : entries ≠ []) (hmax : 0 < maxBoxes) :
    Full entries.length (medianCut entries maxBoxes).clusters
      (medianCut entries maxBoxes).assignment where
  length_eq := length_assignment_medianCut hne hmax
  lt_clusters := fun _ hk => lt_clusters_medianCut hne hmax hk
  held := by
    intro k hk
    rw [medianCut_eq_ofBoxes hne hmax] at hk ⊢
    exact mem_assignment_ofBoxes (divides_medianCut hne (maxBoxes - 1)) hk

theorem clusters_medianCut (hne : entries ≠ []) (hcolors : (entries.map (·.color)).Nodup)
    (hcounts : ∀ e ∈ entries, 0 < e.count) (hmax : 0 < maxBoxes) :
    (medianCut entries maxBoxes).clusters = min maxBoxes entries.length := by
  have hlen := (ColorBox.divides_single (membersOf_ne_nil hne)).length_splitTimes
    (varied_membersOf hcolors hcounts) (maxBoxes - 1)
  rw [medianCut_eq_ofBoxes hne hmax]
  calc
    (ColorBox.splitTimes (maxBoxes - 1) [ColorBox.ofMembers (membersOf entries)]).length =
        min (1 + (maxBoxes - 1)) (membersOf entries).length := hlen
    _ = min maxBoxes entries.length := by rw [length_membersOf, Nat.add_sub_cancel' hmax]

end Clustering

end PaletteBitmap

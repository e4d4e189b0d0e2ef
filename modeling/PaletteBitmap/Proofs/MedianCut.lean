import PaletteBitmap.Quantize.ColorBox

/-!
# Cutting at the medians

What `Clustering.medianCut` guarantees whatever the colors and counts are: every entry is given
a cluster, the cluster is one of those counted, and there are no more clusters than asked for.
The last is a fact about the loop of splits, the first two about writing box numbers into the
assignment.
-/

namespace PaletteBitmap

namespace ColorBox

/-! ## The loop of splits -/

theorem splitAt_of_getElem? {boxes : List ColorBox} {i : Nat} {b : ColorBox}
    (hb : boxes[i]? = some b) :
    splitAt boxes i = boxes.take i ++ b.split.1 :: b.split.2 :: boxes.drop (i + 1) := by
  rw [splitAt, hb]

/-- A split puts two boxes in the place of one. -/
theorem length_splitAt {boxes : List ColorBox} {i : Nat} {b : ColorBox}
    (hb : boxes[i]? = some b) : (splitAt boxes i).length = boxes.length + 1 := by
  rcases List.getElem?_eq_some_iff.1 hb with ⟨hi, -⟩
  rw [splitAt_of_getElem? hb]
  simp only [List.length_append, List.length_cons, List.length_take, List.length_drop]
  omega

theorem mem_splitAt {boxes : List ColorBox} {i : Nat} {b c : ColorBox}
    (hb : boxes[i]? = some b) (hc : c ∈ splitAt boxes i) :
    c ∈ boxes ∨ c = b.split.1 ∨ c = b.split.2 := by
  rw [splitAt_of_getElem? hb] at hc
  simp only [List.mem_append, List.mem_cons] at hc
  rcases hc with htake | hlower | hupper | hdrop
  · exact .inl (List.mem_of_mem_take htake)
  · exact .inr (.inl hlower)
  · exact .inr (.inr hupper)
  · exact .inl (List.mem_of_mem_drop hdrop)

theorem length_splitAt_le (boxes : List ColorBox) (i : Nat) :
    (splitAt boxes i).length ≤ boxes.length + 1 := by
  cases hb : boxes[i]? with
  | none =>
      rw [splitAt, hb]
      exact Nat.le_succ _
  | some b => exact Nat.le_of_eq (length_splitAt hb)

theorem splitAt_ne_nil {boxes : List ColorBox} (h : boxes ≠ []) (i : Nat) :
    splitAt boxes i ≠ [] := by
  rw [splitAt]
  split
  · exact h
  · simp

/-- What every split of a box keeps, all of them keep. -/
theorem splitTimes_induction {P : List ColorBox → Prop}
    (hstep : ∀ boxes i, best? boxes = some i → P boxes → P (splitAt boxes i)) (n : Nat)
    {boxes : List ColorBox} (h : P boxes) : P (splitTimes n boxes) := by
  induction n generalizing boxes with
  | zero => exact h
  | succ n ih =>
      rw [splitTimes]
      split
      -- No box can be split any more, so the rest of the steps is not taken.
      · exact h
      · next i hbest => exact ih (hstep boxes i hbest h)

theorem length_splitTimes_le (n : Nat) (boxes : List ColorBox) :
    (splitTimes n boxes).length ≤ boxes.length + n := by
  induction n generalizing boxes with
  | zero => exact Nat.le_refl _
  | succ n ih =>
      rw [splitTimes]
      split
      · exact Nat.le_add_right _ _
      · next i _ =>
        have hstep := length_splitAt_le boxes i
        have hrest := ih (splitAt boxes i)
        omega

theorem splitTimes_ne_nil (n : Nat) {boxes : List ColorBox} (h : boxes ≠ []) :
    splitTimes n boxes ≠ [] :=
  splitTimes_induction (P := (· ≠ [])) (fun _ i _ hne => splitAt_ne_nil hne i) n h

end ColorBox

namespace Clustering

/-! ## Members of the first box -/

theorem map_position_membersOf (entries : List HistogramEntry) :
    (membersOf entries).map (·.position) = List.range entries.length := by
  rw [membersOf, List.map_map, List.range_eq_range']
  exact List.zipIdx_map_snd 0 entries

theorem map_entry_membersOf (entries : List HistogramEntry) :
    (membersOf entries).map (fun m => ⟨m.color, m.count⟩) = entries := by
  rw [membersOf, List.map_map]
  exact List.zipIdx_map_fst 0 entries

/-! ## Writing box numbers -/

@[simp]
theorem size_mark (assignment : Array Nat) (cluster : Nat) (box : ColorBox) :
    (mark assignment cluster box).size = assignment.size := by
  rw [mark]
  induction box.members generalizing assignment with
  | nil => rfl
  | cons m rest ih => rw [List.foldl_cons, ih, Array.size_setIfInBounds]

theorem mem_mark {assignment : Array Nat} {cluster : Nat} {box : ColorBox} {i : Nat}
    (h : i ∈ mark assignment cluster box) : i ∈ assignment ∨ i = cluster := by
  rw [mark] at h
  generalize box.members = members at h
  induction members generalizing assignment with
  | nil => exact Or.inl h
  | cons m rest ih =>
      rw [List.foldl_cons] at h
      rcases ih h with hset | heq
      · exact Array.mem_or_eq_of_mem_setIfInBounds hset
      · exact Or.inr heq

/-- A mark is found at the positions of the members, and what was there before everywhere else. -/
theorem getElem?_mark (assignment : Array Nat) (cluster : Nat) (box : ColorBox) (p : Nat) :
    (mark assignment cluster box)[p]? =
      if p ∈ box.members.map (·.position) ∧ p < assignment.size then some cluster
      else assignment[p]? := by
  rw [mark]
  induction box.members generalizing assignment with
  | nil => simp
  | cons m rest ih =>
      rw [List.foldl_cons, ih, Array.size_setIfInBounds, Array.getElem?_setIfInBounds]
      -- The first member and a later one may be at one position: both write the same number.
      by_cases hm : m.position = p
      · subst hm
        by_cases hlt : m.position < assignment.size
        · simp [hlt]
        · simp [hlt]
      · simp [hm, Ne.symm hm]

/-- An assignment of numbers below `clusters`, one for each of `n` entries. -/
def Ranged (n clusters : Nat) (assignment : Array Nat) : Prop :=
  assignment.size = n ∧ ∀ i ∈ assignment, i < clusters

theorem Ranged.mark {n clusters : Nat} {assignment : Array Nat}
    (h : Ranged n clusters assignment) {cluster : Nat} (hc : cluster < clusters)
    (box : ColorBox) : Ranged n clusters (mark assignment cluster box) := by
  refine ⟨by rw [size_mark, h.1], ?_⟩
  intro i hi
  rcases mem_mark hi with hold | rfl
  · exact h.2 i hold
  · exact hc

theorem ranged_ofBoxes (n : Nat) {boxes : List ColorBox} (h : boxes ≠ []) :
    Ranged n boxes.length
      (boxes.zipIdx.foldl (fun a (box, i) => Clustering.mark a i box) (Array.replicate n 0)) := by
  -- Before any box is marked, all entries are in cluster zero, which there has to be.
  apply List.foldlRecOn (motive := Ranged n boxes.length)
  · refine ⟨Array.size_replicate, ?_⟩
    intro i hi
    rw [(Array.mem_replicate.1 hi).2]
    exact List.length_pos_iff.2 h
  · rintro assignment hranged ⟨box, i⟩ hbox
    exact hranged.mark (List.mem_zipIdx' hbox).1 box

/-! ## Median cuts -/

variable {entries : List HistogramEntry} {maxBoxes : Nat}

theorem medianCut_eq_ofBoxes (hne : entries ≠ []) (hmax : 0 < maxBoxes) :
    medianCut entries maxBoxes = ofBoxes entries.length
      (ColorBox.splitTimes (maxBoxes - 1) [ColorBox.ofMembers (membersOf entries)]) := by
  have hentries : entries.isEmpty = false := by simpa using hne
  have hboxes : (maxBoxes == 0) = false := beq_eq_false_iff_ne.2 (Nat.ne_of_gt hmax)
  rw [medianCut, hentries, hboxes]
  rfl

theorem length_assignment_medianCut (hne : entries ≠ []) (hmax : 0 < maxBoxes) :
    (medianCut entries maxBoxes).assignment.length = entries.length := by
  rw [medianCut_eq_ofBoxes hne hmax]
  exact (ranged_ofBoxes entries.length
    (ColorBox.splitTimes_ne_nil (maxBoxes - 1) (List.cons_ne_nil _ _))).1

theorem lt_clusters_medianCut (hne : entries ≠ []) (hmax : 0 < maxBoxes) {i : Nat}
    (hi : i ∈ (medianCut entries maxBoxes).assignment) :
    i < (medianCut entries maxBoxes).clusters := by
  rw [medianCut_eq_ofBoxes hne hmax] at hi ⊢
  exact (ranged_ofBoxes entries.length
    (ColorBox.splitTimes_ne_nil (maxBoxes - 1) (List.cons_ne_nil _ _))).2 i
      (Array.mem_toList_iff.1 hi)

theorem clusters_medianCut_le (hne : entries ≠ []) (hmax : 0 < maxBoxes) :
    (medianCut entries maxBoxes).clusters ≤ maxBoxes := by
  rw [medianCut_eq_ofBoxes hne hmax]
  have hlen := ColorBox.length_splitTimes_le (maxBoxes - 1)
    [ColorBox.ofMembers (membersOf entries)]
  rw [List.length_singleton] at hlen
  have hclusters : (ofBoxes entries.length (ColorBox.splitTimes (maxBoxes - 1)
      [ColorBox.ofMembers (membersOf entries)])).clusters =
      (ColorBox.splitTimes (maxBoxes - 1) [ColorBox.ofMembers (membersOf entries)]).length := rfl
  omega

end Clustering

end PaletteBitmap

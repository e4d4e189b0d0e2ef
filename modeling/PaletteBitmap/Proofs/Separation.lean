import Mathlib
import PaletteBitmap.Proofs.Means
import PaletteBitmap.Proofs.Partition

/-!
# The order that the cuts leave

A box is sorted by a channel before it is cut, so on that channel no color of the lower half is
above one of the upper half.  The halves take the place of their box in the list and hold none but
its colors.  So at every stage there is a channel for any two boxes, on which the earlier one lies
below the later one (`Separated`).  It is the channel of the cut that put the two apart, and may be
another for the next two.

Cluster numbers are positions of boxes, so the clusters of a median cut stand in the same order
(`medianCut_separated`).
-/

namespace PaletteBitmap

namespace ColorBox

/-! ## The halves of a box -/

/-- On some channel no color of one box is above a color of the other. -/
def Below (lower upper : ColorBox) : Prop :=
  ∃ ch, ∀ m ∈ lower.members, ∀ n ∈ upper.members, m.color.channel ch ≤ n.color.channel ch

variable {b c lower upper : ColorBox}

theorem Below.of_subset_left (h : Below b c) (hsub : lower.members ⊆ b.members) :
    Below lower c := by
  rcases h with ⟨ch, hch⟩
  exact ⟨ch, fun m hm => hch m (hsub hm)⟩

theorem Below.of_subset_right (h : Below b c) (hsub : upper.members ⊆ c.members) :
    Below b upper := by
  rcases h with ⟨ch, hch⟩
  exact ⟨ch, fun m hm n hn => hch m hm n (hsub hn)⟩

/-- Wherever a sorted box is cut, its halves are told apart by the channel it was sorted by. -/
theorem split_below (b : ColorBox) : Below b.split.1 b.split.2 := by
  have hsorted := pairwise_sortBy b.extent.widest b.members
  rw [← List.take_append_drop (cut b.population (sortBy b.extent.widest b.members))
    (sortBy b.extent.widest b.members), List.pairwise_append] at hsorted
  exact ⟨b.extent.widest, hsorted.2.2⟩

theorem split_subset (b : ColorBox) :
    b.split.1.members ⊆ b.members ∧ b.split.2.members ⊆ b.members := by
  have hperm := split_perm b
  exact ⟨fun _ hm => hperm.subset (List.mem_append_left _ hm),
    fun _ hm => hperm.subset (List.mem_append_right _ hm)⟩

/-! ## The boxes of a cut -/

/-- Every box is below all that come after it. -/
def Separated (boxes : List ColorBox) : Prop := boxes.Pairwise Below

/-- Two boxes in the place of one are separated from the others as the one was. -/
theorem Separated.replace {before after : List ColorBox} (h : Separated (before ++ b :: after))
    (hlower : lower.members ⊆ b.members) (hupper : upper.members ⊆ b.members)
    (hbelow : Below lower upper) : Separated (before ++ lower :: upper :: after) := by
  rw [Separated, List.pairwise_append, List.pairwise_cons] at h
  rcases h with ⟨hbefore, ⟨hb, hafter⟩, hacross⟩
  refine List.pairwise_append.2 ⟨hbefore, ?_, ?_⟩
  · -- Against the boxes that come after, each half is as its box was.
    refine List.pairwise_cons.2 ⟨?_, List.pairwise_cons.2 ⟨?_, hafter⟩⟩
    · intro c hc
      rcases List.mem_cons.1 hc with rfl | hc
      · exact hbelow
      · exact (hb c hc).of_subset_left hlower
    · exact fun c hc => (hb c hc).of_subset_left hupper
  · intro d hd c hc
    have hdb : Below d b := hacross d hd b List.mem_cons_self
    rcases List.mem_cons.1 hc with rfl | hc
    · exact hdb.of_subset_right hlower
    · rcases List.mem_cons.1 hc with rfl | hc
      · exact hdb.of_subset_right hupper
      · exact hacross d hd c (List.mem_cons_of_mem b hc)

variable {boxes : List ColorBox}

theorem Separated.splitAt (h : Separated boxes) (i : Nat) : Separated (splitAt boxes i) := by
  cases hb : boxes[i]? with
  | none =>
      rw [ColorBox.splitAt, hb]
      exact h
  | some b =>
      rcases List.getElem?_eq_some_iff.1 hb with ⟨hi, rfl⟩
      have hboxes : boxes.take i ++ boxes[i] :: boxes.drop (i + 1) = boxes := by
        rw [List.getElem_cons_drop, List.take_append_drop]
      have hsub := split_subset boxes[i]
      rw [splitAt_of_getElem? hb]
      rw [← hboxes] at h
      exact h.replace hsub.1 hsub.2 (split_below boxes[i])

theorem Separated.splitTimes (h : Separated boxes) (n : Nat) : Separated (splitTimes n boxes) :=
  splitTimes_induction (P := Separated) (fun _ i _ hboxes => hboxes.splitAt i) n h

end ColorBox

namespace Clustering

open ColorBox

variable {entries : List HistogramEntry} {boxes : List ColorBox}

/-! ## The clusters -/

/-- The members of a cluster are in the box with its number. -/
theorem exists_box_of_mem (h : Divides boxes (membersOf entries)) {k : Nat} {e : HistogramEntry}
    (he : e ∈ membersIn (entries.zip (ofBoxes entries.length boxes).assignment) k) :
    ∃ b, boxes[k]? = some b ∧ ∃ m ∈ b.members, m.color = e.color := by
  have hpair : (e, k) ∈ entries.zip (ofBoxes entries.length boxes).assignment := by
    simpa [membersIn] using he
  rcases List.mem_iff_getElem?.1 hpair with ⟨p, hp⟩
  rcases List.getElem?_zip_eq_some.1 hp with ⟨hentry, hnumber⟩
  -- The entry is a member of some box, which has written its own number at this position.
  have hmember : (⟨p, e.color, e.count⟩ : Member) ∈ boxes.flatMap (·.members) := by
    refine h.perm.mem_iff.2 (List.mem_map.2 ⟨(e, p), ?_, rfl⟩)
    exact List.mem_zipIdx_iff_getElem?.2 hentry
  rcases List.mem_flatMap.1 hmember with ⟨b, hb, hm⟩
  rcases List.mem_iff_getElem?.1 hb with ⟨j, hj⟩
  have hwritten := getElem?_assignment_of_divides h hj hm
  cases hnumber.symm.trans hwritten
  exact ⟨b, hj, _, hm, rfl⟩

/-! ## Main statement -/

/-- The clusters of a median cut are in the order of the cuts.  For any two of them there is a
channel on which no member of the earlier one is above a member of the later one. -/
theorem medianCut_separated (entries : List HistogramEntry) (maxBoxes : Nat) {i j : Nat}
    (hij : i < j) :
    ∃ ch, ∀ e ∈ membersIn (entries.zip (medianCut entries maxBoxes).assignment) i,
      ∀ f ∈ membersIn (entries.zip (medianCut entries maxBoxes).assignment) j,
        e.color.channel ch ≤ f.color.channel ch := by
  by_cases hne : entries = []
  · exact ⟨.red, by simp [hne, membersIn]⟩
  rcases Nat.eq_zero_or_pos maxBoxes with rfl | hmax
  · exact ⟨.red, by simp [medianCut, membersIn]⟩
  have hdivides := divides_medianCut hne (maxBoxes - 1)
  have hseparated : Separated (splitTimes (maxBoxes - 1) [ofMembers (membersOf entries)]) :=
    Separated.splitTimes (List.pairwise_singleton ..) _
  rw [medianCut_eq_ofBoxes hne hmax]
  generalize splitTimes (maxBoxes - 1) [ofMembers (membersOf entries)] = boxes at *
  by_cases hj : j < boxes.length
  · rcases List.pairwise_iff_getElem.1 hseparated i j (hij.trans hj) hj hij with ⟨ch, hch⟩
    refine ⟨ch, ?_⟩
    intro e he f hf
    rcases exists_box_of_mem hdivides he with ⟨b, hb, m, hm, hme⟩
    rcases exists_box_of_mem hdivides hf with ⟨c, hc, n, hn, hnf⟩
    rw [List.getElem?_eq_getElem (hij.trans hj)] at hb
    rw [List.getElem?_eq_getElem hj] at hc
    cases hb
    cases hc
    rw [← hme, ← hnf]
    exact hch m hm n hn
  · -- A number that no box has is no entry's, so any channel will do.
    refine ⟨.red, fun e _ f hf => ?_⟩
    rcases exists_box_of_mem hdivides hf with ⟨c, hc, -⟩
    exact absurd (List.getElem?_eq_some_iff.1 hc).1 hj

/-- A black, an orange and a red that is a little more red, more blue and less transparent. -/
def lanterns : List HistogramEntry :=
  [⟨Rgba.solid 0 0 0, 4⟩, ⟨⟨250, 200, 0, 200⟩, 1⟩, ⟨Rgba.solid 255 0 30, 1⟩]

/-- Black is cut off by its red; the other two are cut apart by their green, and on no other channel
are they in the order of their clusters. -/
theorem lanterns_separated :
    membersIn (lanterns.zip (medianCut lanterns 3).assignment) 1 = [⟨Rgba.solid 255 0 30, 1⟩] ∧
    membersIn (lanterns.zip (medianCut lanterns 3).assignment) 2 = [⟨⟨250, 200, 0, 200⟩, 1⟩] ∧
    ∃ ch, (∀ e ∈ membersIn (lanterns.zip (medianCut lanterns 3).assignment) 1,
      ∀ f ∈ membersIn (lanterns.zip (medianCut lanterns 3).assignment) 2,
        e.color.channel ch ≤ f.color.channel ch) ∧ ch = .green := by
  have hcut : (medianCut lanterns 3).assignment = [0, 2, 1] := by cbv
  have hred : membersIn (lanterns.zip (medianCut lanterns 3).assignment) 1 =
      [⟨Rgba.solid 255 0 30, 1⟩] := by
    rw [hcut]
    rfl
  have horange : membersIn (lanterns.zip (medianCut lanterns 3).assignment) 2 =
      [⟨⟨250, 200, 0, 200⟩, 1⟩] := by
    rw [hcut]
    rfl
  rcases medianCut_separated lanterns 3 (show 1 < 2 by decide) with ⟨ch, hch⟩
  refine ⟨hred, horange, ch, hch, ?_⟩
  have hle := hch ⟨Rgba.solid 255 0 30, 1⟩ (by simp [hred]) ⟨⟨250, 200, 0, 200⟩, 1⟩
    (by simp [horange])
  revert hle
  cases ch with
  | green => exact fun _ => rfl
  | red | blue | alpha => decide

end Clustering

end PaletteBitmap

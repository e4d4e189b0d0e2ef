import Mathlib
import PaletteBitmap.Proofs.Search

/-!
# Boxes and their halves

What a box of histogram entries says about its members, and what a split does with them.  The extent
takes in the color of every member, so a box that holds two colors is wider than nothing on some
channel, and then it counts for something when the next box to split is chosen.

A split sorts the members and cuts between two of them.  None is lost, and wherever the middle pixel
is, either half has a member.
-/

namespace PaletteBitmap

/-! ## Extents -/

theorem Rgba.exists_channel_ne {c d : Rgba} (h : c ≠ d) : ∃ ch, c.channel ch ≠ d.channel ch := by
  by_contra hsame
  simp only [not_exists, not_not] at hsame
  rcases c with ⟨r, g, b, a⟩
  rcases d with ⟨r', g', b', a'⟩
  have hr : r = r' := hsame .red
  have hg : g = g' := hsame .green
  have hb : b = b' := hsame .blue
  have ha : a = a' := hsame .alpha
  subst hr hg hb ha
  exact h rfl

namespace Extent

theorem toNat_low_add (e : Extent) (c : Rgba) (ch : Channel) :
    ((e.add c).low.channel ch).toNat = min (e.low.channel ch).toNat (c.channel ch).toNat := by
  cases ch <;> exact UInt8.toNat_min _ _

theorem toNat_high_add (e : Extent) (c : Rgba) (ch : Channel) :
    ((e.add c).high.channel ch).toNat = max (e.high.channel ch).toNat (c.channel ch).toNat := by
  cases ch <;> exact UInt8.toNat_max _ _

/-- Going through some channels for a wider one ends no narrower than any of them. -/
theorem width_le_foldl (e : Extent) (channels : List Channel) (best : Channel) :
    ∀ ch ∈ best :: channels, e.width ch ≤ e.width
      (channels.foldl (fun best ch => if e.width best < e.width ch then ch else best) best) := by
  induction channels generalizing best with
  | nil =>
      intro ch hch
      rw [List.mem_singleton.1 hch]
      exact Nat.le_refl _
  | cons next rest ih =>
      intro ch hch
      rw [List.foldl_cons]
      -- Whichever of the two is kept, it is as wide as the other.
      split
      · next hwider =>
        rcases List.mem_cons.1 hch with rfl | hmem
        · exact Nat.le_trans (Nat.le_of_lt hwider) (ih next next List.mem_cons_self)
        · exact ih next ch hmem
      · next hnarrow =>
        rcases List.mem_cons.1 hch with rfl | hmem
        · exact ih ch ch List.mem_cons_self
        · rcases List.mem_cons.1 hmem with rfl | hrest
          · exact Nat.le_trans (Nat.not_lt.1 hnarrow) (ih best best List.mem_cons_self)
          · exact ih best ch (List.mem_cons_of_mem best hrest)

theorem width_le_widest (e : Extent) (ch : Channel) : e.width ch ≤ e.width e.widest :=
  e.width_le_foldl _ .red ch (Channel.mem_all ch)

end Extent

namespace ColorBox

/-! ## Members -/

theorem populationOf_append (members more : List Member) :
    populationOf (members ++ more) = populationOf members + populationOf more := by
  rw [populationOf, List.map_append]
  exact List.sum_append

theorem populationOf_concat (members : List Member) (m : Member) :
    populationOf (members ++ [m]) = populationOf members + m.count := by
  rw [populationOf_append]
  rfl

theorem extentOf_concat (members : List Member) (m : Member) :
    extentOf (members ++ [m]) = (extentOf members).add m.color := by
  rw [extentOf, List.foldl_append]
  rfl

theorem populationOf_perm {members more : List Member} (h : members.Perm more) :
    populationOf members = populationOf more :=
  (h.map _).sum_eq

variable {members : List Member} {m n : Member}

theorem count_le_populationOf (hm : m ∈ members) : m.count ≤ populationOf members :=
  List.single_le_sum (fun _ _ => Nat.zero_le _) _ (List.mem_map_of_mem hm)

theorem channel_within_extentOf (hm : m ∈ members) (ch : Channel) :
    ((extentOf members).low.channel ch).toNat ≤ (m.color.channel ch).toNat ∧
      (m.color.channel ch).toNat ≤ ((extentOf members).high.channel ch).toNat := by
  induction members using List.reverseRecOn with
  | nil => cases hm
  | append_singleton members last ih =>
      rw [extentOf_concat, Extent.toNat_low_add, Extent.toNat_high_add]
      rcases List.mem_append.1 hm with hold | hlast
      · exact ⟨min_le_of_left_le (ih hold).1, le_max_of_le_left (ih hold).2⟩
      · rw [List.mem_singleton.1 hlast]
        exact ⟨min_le_right _ _, le_max_right _ _⟩

/-- Where two members differ, their box is wide. -/
theorem width_pos (hm : m ∈ members) (hn : n ∈ members) {ch : Channel}
    (hne : m.color.channel ch ≠ n.color.channel ch) : 0 < (extentOf members).width ch := by
  have hmin := channel_within_extentOf hm ch
  have hnin := channel_within_extentOf hn ch
  have hvalues : (m.color.channel ch).toNat ≠ (n.color.channel ch).toNat := fun h =>
    hne (UInt8.toNat_inj.1 h)
  rw [Extent.width]
  omega

/-- A box with two colors and a pixel counts for something, so it can be chosen to be split. -/
theorem score_pos (hm : m ∈ members) (hn : n ∈ members) (hcolor : m.color ≠ n.color)
    (hcount : 0 < m.count) : 0 < (ofMembers members).score := by
  have hlen : ¬ members.length < 2 := by
    intro hshort
    have hone : members.length = 1 := by
      have := List.length_pos_of_mem hm
      omega
    rcases List.length_eq_one_iff.1 hone with ⟨only, rfl⟩
    rw [List.mem_singleton.1 hm, List.mem_singleton.1 hn] at hcolor
    exact hcolor rfl
  rcases Rgba.exists_channel_ne hcolor with ⟨ch, hch⟩
  have hwidest : 0 < (extentOf members).width (extentOf members).widest :=
    Nat.lt_of_lt_of_le (width_pos hm hn hch) (Extent.width_le_widest _ ch)
  have hpopulation : 0 < populationOf members :=
    Nat.lt_of_lt_of_le hcount (count_le_populationOf hm)
  have hscore : (ofMembers members).score =
      (extentOf members).width (extentOf members).widest * populationOf members := if_neg hlen
  rw [hscore]
  exact Nat.mul_pos hwidest hpopulation

/-! ## Halves -/

theorem sortBy_perm (ch : Channel) (members : List Member) :
    (sortBy ch members).Perm members :=
  List.mergeSort_perm members _

theorem channel_le_trans (ch : Channel) (l m n : Member)
    (hlm : decide (l.color.channel ch ≤ m.color.channel ch) = true)
    (hmn : decide (m.color.channel ch ≤ n.color.channel ch) = true) :
    decide (l.color.channel ch ≤ n.color.channel ch) = true := by
  rw [decide_eq_true_eq] at hlm hmn ⊢
  exact UInt8.le_trans hlm hmn

theorem channel_le_total (ch : Channel) (m n : Member) :
    (decide (m.color.channel ch ≤ n.color.channel ch) ||
      decide (n.color.channel ch ≤ m.color.channel ch)) = true := by
  simpa using UInt8.le_total (m.color.channel ch) (n.color.channel ch)

theorem pairwise_sortBy (ch : Channel) (members : List Member) :
    (sortBy ch members).Pairwise fun m n => m.color.channel ch ≤ n.color.channel ch :=
  (List.pairwise_mergeSort (channel_le_trans ch) (channel_le_total ch) members).imp
    of_decide_eq_true

theorem cut_pos (population : Nat) (sorted : List Member) : 0 < cut population sorted := by
  rw [cut]
  omega

theorem cut_lt_length (population : Nat) {sorted : List Member} (h : 2 ≤ sorted.length) :
    cut population sorted < sorted.length := by
  rw [cut]
  omega

variable {b : ColorBox}

/-- The two halves have the members of the box between them. -/
theorem split_perm (b : ColorBox) : (b.split.1.members ++ b.split.2.members).Perm b.members := by
  rw [split]
  simp only [ofMembers, List.take_append_drop]
  exact sortBy_perm _ _

theorem split_ne_nil (h : 2 ≤ b.members.length) :
    b.split.1.members ≠ [] ∧ b.split.2.members ≠ [] := by
  have hlen : (sortBy b.extent.widest b.members).length = b.members.length :=
    (sortBy_perm _ _).length_eq
  have hpos := cut_pos b.population (sortBy b.extent.widest b.members)
  have hlt := cut_lt_length b.population (hlen ▸ h)
  constructor
  · rw [← List.length_pos_iff, split]
    simp only [ofMembers, List.length_take]
    omega
  · rw [← List.length_pos_iff, split]
    simp only [ofMembers, List.length_drop]
    omega

end ColorBox

end PaletteBitmap

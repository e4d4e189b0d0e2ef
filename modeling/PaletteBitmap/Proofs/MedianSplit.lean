import Mathlib
import PaletteBitmap.Proofs.Boxes

/-!
# Cutting a box at its middle pixel

One box is split in two.  Its members are sorted by the channel that reaches farthest, members of one
value as they stood, and cut after the one that has the middle pixel.  If that is the last member,
the cut is made before it, so that neither half is empty.

Where the cut falls is said without the search for it: the lower half does not reach the middle
without its last member, and it does reach it with that one, unless there is but one member above
(`Halves`).  What either half says of its members is true of them again (`Measured`), so the next
split starts from what this one is said to start from.
-/

namespace PaletteBitmap

namespace Extent

/-! ## The widest channel -/

/-- The first of some channels that reaches as far as any of them. -/
def FirstWidest (e : Extent) (channels : List Channel) (ch : Channel) : Prop :=
  ∃ before after, channels = before ++ ch :: after ∧
    (∀ c ∈ before, e.width c < e.width ch) ∧ ∀ c ∈ after, e.width c ≤ e.width ch

variable {e : Extent} {channels : List Channel} {ch : Channel}

theorem FirstWidest.width_le (h : e.FirstWidest channels ch) :
    ∀ c ∈ channels, e.width c ≤ e.width ch := by
  rcases h with ⟨before, after, rfl, hbefore, hafter⟩
  intro c hc
  rcases List.mem_append.1 hc with hc | hc
  · exact Nat.le_of_lt (hbefore c hc)
  · rcases List.mem_cons.1 hc with rfl | hc
    · exact Nat.le_refl _
    · exact hafter c hc

/-- A channel more takes the place of the first widest one only where it is wider. -/
theorem FirstWidest.concat (h : e.FirstWidest channels ch) (next : Channel) :
    e.FirstWidest (channels ++ [next]) (if e.width ch < e.width next then next else ch) := by
  split
  · next hwider =>
    refine ⟨channels, [], rfl, ?_, by simp⟩
    exact fun c hc => Nat.lt_of_le_of_lt (h.width_le c hc) hwider
  · next hnarrow =>
    rcases h with ⟨before, after, rfl, hbefore, hafter⟩
    refine ⟨before, after ++ [next], by simp, hbefore, ?_⟩
    intro c hc
    rcases List.mem_append.1 hc with hc | hc
    · exact hafter c hc
    · rw [List.mem_singleton.1 hc]
      exact Nat.not_lt.1 hnarrow

theorem firstWidest_widest (e : Extent) : e.FirstWidest Channel.all e.widest := by
  have hrun : ∀ channels, e.FirstWidest (Channel.red :: channels)
      (channels.foldl (fun best ch => if e.width best < e.width ch then ch else best) .red) := by
    intro channels
    induction channels using List.reverseRecOn with
    | nil => exact ⟨[], [], rfl, by simp, by simp⟩
    | append_singleton channels next ih =>
        rw [List.foldl_append]
        exact ih.concat next
  exact hrun [.green, .blue, .alpha]

/-! ## Ends -/

theorem low_add_cases (e : Extent) (c : Rgba) (ch : Channel) :
    (e.add c).low.channel ch = e.low.channel ch ∨ (e.add c).low.channel ch = c.channel ch := by
  have hmin := e.toNat_low_add c ch
  rcases Nat.le_total (e.low.channel ch).toNat (c.channel ch).toNat with h | h
  · exact .inl (UInt8.toNat_inj.1 (hmin.trans (Nat.min_eq_left h)))
  · exact .inr (UInt8.toNat_inj.1 (hmin.trans (Nat.min_eq_right h)))

theorem high_add_cases (e : Extent) (c : Rgba) (ch : Channel) :
    (e.add c).high.channel ch = e.high.channel ch ∨ (e.add c).high.channel ch = c.channel ch := by
  have hmax := e.toNat_high_add c ch
  rcases Nat.le_total (e.high.channel ch).toNat (c.channel ch).toNat with h | h
  · exact .inr (UInt8.toNat_inj.1 (hmax.trans (Nat.max_eq_right h)))
  · exact .inl (UInt8.toNat_inj.1 (hmax.trans (Nat.max_eq_left h)))

/-- The first color that an extent takes in is both of its ends. -/
theorem nothing_add (c : Rgba) : nothing.add c = ⟨c, c⟩ := by
  have hmin : ∀ v : UInt8, min 255 v = v := fun v =>
    UInt8.toNat_inj.1 ((UInt8.toNat_min 255 v).trans (Nat.min_eq_right (Nat.le_of_lt_succ v.toNat_lt)))
  have hmax : ∀ v : UInt8, max 0 v = v := fun v =>
    UInt8.toNat_inj.1 ((UInt8.toNat_max 0 v).trans (Nat.max_eq_right (Nat.zero_le _)))
  simp only [nothing, add, hmin, hmax]

end Extent

namespace ColorBox

variable {members : List Member} {m : Member} {ch : Channel} {b : ColorBox}

/-! ## What a box says of its members -/

/-- The values that some members have on a channel. -/
def values (members : List Member) (ch : Channel) : Set UInt8 :=
  {v | ∃ m ∈ members, m.color.channel ch = v}

/-- A box that tells the truth of its members: how many pixels they have, and between which two of
their values each channel reaches. -/
structure Measured (b : ColorBox) : Prop where
  population_eq : b.population = (b.members.map (·.count)).sum
  low : ∀ ch, IsLeast (values b.members ch) (b.extent.low.channel ch)
  high : ∀ ch, IsGreatest (values b.members ch) (b.extent.high.channel ch)

theorem mem_values (hm : m ∈ members) (ch : Channel) : m.color.channel ch ∈ values members ch :=
  ⟨m, hm, rfl⟩

theorem values_concat (members : List Member) (m : Member) (ch : Channel) :
    values (members ++ [m]) ch = insert (m.color.channel ch) (values members ch) := by
  ext v
  simp [values, or_and_right, exists_or, or_comm, eq_comm]

/-- Whatever an extent is, taking in some members moves its ends to values of theirs, if at all. -/
theorem ends_foldl (e : Extent) (members : List Member) (ch : Channel) :
    (members.foldl (fun e m => e.add m.color) e).low.channel ch ∈
        insert (e.low.channel ch) (values members ch) ∧
      (members.foldl (fun e m => e.add m.color) e).high.channel ch ∈
        insert (e.high.channel ch) (values members ch) := by
  induction members using List.reverseRecOn with
  | nil => exact ⟨.inl rfl, .inl rfl⟩
  | append_singleton members last ih =>
      rw [List.foldl_append, List.foldl_cons, List.foldl_nil, values_concat]
      generalize members.foldl (fun e m => e.add m.color) e = f at ih
      rcases ih with ⟨hlow, hhigh⟩
      constructor
      · rcases Extent.low_add_cases f last.color ch with h | h
        · rw [h]
          exact Set.insert_subset_insert (Set.subset_insert _ _) hlow
        · rw [h]
          exact .inr (.inl rfl)
      · rcases Extent.high_add_cases f last.color ch with h | h
        · rw [h]
          exact Set.insert_subset_insert (Set.subset_insert _ _) hhigh
        · rw [h]
          exact .inr (.inl rfl)

theorem measured_ofMembers (hne : members ≠ []) : (ofMembers members).Measured := by
  match members, hne with
  | m :: rest, _ =>
    have hends := ends_foldl (Extent.nothing.add m.color) rest
    rw [Extent.nothing_add] at hends
    have hvalues : ∀ ch, insert (m.color.channel ch) (values rest ch) ⊆ values (m :: rest) ch := by
      rintro ch v (rfl | ⟨n, hn, rfl⟩)
      · exact mem_values List.mem_cons_self ch
      · exact mem_values (List.mem_cons_of_mem m hn) ch
    have hextent : (ofMembers (m :: rest)).extent =
        rest.foldl (fun e m => e.add m.color) ⟨m.color, m.color⟩ := by
      rw [← Extent.nothing_add]
      rfl
    refine ⟨rfl, fun ch => ⟨hvalues ch (hextent ▸ (hends ch).1), ?_⟩,
      fun ch => ⟨hvalues ch (hextent ▸ (hends ch).2), ?_⟩⟩
    · rintro v ⟨n, hn, rfl⟩
      exact (channel_within_extentOf hn ch).1
    · rintro v ⟨n, hn, rfl⟩
      exact (channel_within_extentOf hn ch).2

/-! ## The middle pixel -/

variable {half running k : Nat}

theorem reach_pos (hne : members ≠ []) : 0 < reach half running members := by
  match members, hne with
  | m :: rest, _ =>
    rw [reach]
    split
    · exact Nat.one_pos
    · exact Nat.succ_pos _

/-- Before the middle is reached, there are less pixels than that. -/
theorem populationOf_take_lt (hrunning : running < half) (hk : k < reach half running members) :
    running + populationOf (members.take k) < half := by
  induction members generalizing running k with
  | nil => exact absurd hk (Nat.not_lt_zero k)
  | cons m rest ih =>
      rw [reach] at hk
      cases k with
      | zero => exact hrunning
      | succ k =>
          split at hk
          · omega
          · next hless =>
            have hrest := ih (Nat.not_le.1 hless) (Nat.lt_of_succ_lt_succ hk)
            have hsum : populationOf ((m :: rest).take (k + 1)) =
                m.count + populationOf (rest.take k) := rfl
            omega

/-- The middle is reached where there are enough pixels for it. -/
theorem le_populationOf_take (h : half ≤ running + populationOf members) :
    half ≤ running + populationOf (members.take (reach half running members)) := by
  induction members generalizing running with
  | nil => exact h
  | cons m rest ih =>
      have hall : populationOf (m :: rest) = m.count + populationOf rest := rfl
      rw [reach]
      split
      · next hreached =>
        have hone : populationOf ((m :: rest).take 1) = m.count := Nat.add_zero _
        omega
      · have hrest : half ≤ running + m.count +
            populationOf (rest.take (reach half (running + m.count) rest)) := ih (by omega)
        have hsum : populationOf ((m :: rest).take (reach half (running + m.count) rest + 1)) =
            m.count + populationOf (rest.take (reach half (running + m.count) rest)) := rfl
        omega

/-! ## Sorted members -/

/-- Members in the order of a channel, where those of one value stand as they stood before. -/
structure StablySorted (ch : Channel) (members sorted : List Member) : Prop where
  perm : sorted.Perm members
  ordered : sorted.Pairwise fun m n => m.color.channel ch ≤ n.color.channel ch
  stable : ∀ v, (sorted.filter fun m => m.color.channel ch = v) =
    members.filter fun m => m.color.channel ch = v

theorem stablySorted_sortBy (ch : Channel) (members : List Member) :
    StablySorted ch members (sortBy ch members) where
  perm := sortBy_perm ch members
  ordered := pairwise_sortBy ch members
  stable := by
    intro v
    let same := members.filter fun m => m.color.channel ch = v
    -- Members of one value are sorted as they are, so sorting all leaves them in their order.
    have hsame : same.Pairwise fun m n => decide (m.color.channel ch ≤ n.color.channel ch) = true := by
      apply List.pairwise_of_forall_mem_list
      intro m hm n hn
      have hm : m.color.channel ch = v := by simpa using (List.mem_filter.1 hm).2
      have hn : n.color.channel ch = v := by simpa using (List.mem_filter.1 hn).2
      rw [hm, hn]
      exact decide_eq_true (UInt8.le_refl v)
    have hsub : same.Sublist (sortBy ch members) :=
      List.sublist_mergeSort (channel_le_trans ch) (channel_le_total ch) hsame List.filter_sublist
    have hfilter := hsub.filter fun m => decide (m.color.channel ch = v)
    rw [List.filter_filter] at hfilter
    simp only [Bool.and_self] at hfilter
    exact (hfilter.eq_of_length ((sortBy_perm ch members).filter _).length_eq.symm).symm

/-! ## The cut -/

section Cut

variable {population : Nat} {sorted : List Member}

theorem cut_le_reach (hlen : 2 ≤ sorted.length) :
    cut population sorted ≤ reach ((population + 1) / 2) 0 sorted := by
  have hpos : 0 < reach ((population + 1) / 2) 0 sorted :=
    reach_pos (List.ne_nil_of_length_pos (Nat.lt_of_succ_lt hlen))
  rw [cut]
  omega

/-- Without its last member the lower part of a cut does not reach the middle. -/
theorem populationOf_dropLast_take_cut (hlen : 2 ≤ sorted.length) (hpos : 0 < population) :
    populationOf (sorted.take (cut population sorted)).dropLast < (population + 1) / 2 := by
  have hcut := cut_pos population sorted
  have hreach : cut population sorted ≤ reach ((population + 1) / 2) 0 sorted := cut_le_reach hlen
  have hbefore : 0 + populationOf (sorted.take (cut population sorted - 1)) < (population + 1) / 2 :=
    populationOf_take_lt (by omega) (by omega)
  rwa [List.dropLast_take (cut_lt_length population hlen), ← Nat.zero_add (populationOf _)]

/-- With it the middle is reached, unless the cut had to be made before the member that has it. -/
theorem middle_le_or_drop_cut (hlen : 2 ≤ sorted.length) (hsum : populationOf sorted = population) :
    (population + 1) / 2 ≤ populationOf (sorted.take (cut population sorted)) ∨
      ∃ m, sorted.drop (cut population sorted) = [m] := by
  by_cases hlast : reach ((population + 1) / 2) 0 sorted ≤ sorted.length - 1
  · left
    have hcut : cut population sorted = reach ((population + 1) / 2) 0 sorted := by
      have hle : cut population sorted ≤ reach ((population + 1) / 2) 0 sorted := cut_le_reach hlen
      rw [cut] at hle ⊢
      omega
    have hmiddle : (population + 1) / 2 ≤
        0 + populationOf (sorted.take (reach ((population + 1) / 2) 0 sorted)) :=
      le_populationOf_take (by omega)
    rwa [hcut, ← Nat.zero_add (populationOf _)]
  · right
    apply List.length_eq_one_iff.1
    rw [List.length_drop, cut]
    omega

end Cut

/-! ## Main statement -/

/-- Two boxes that a box is cut into at its middle pixel. -/
structure Halves (b lower upper : ColorBox) : Prop where
  lower_ne_nil : lower.members ≠ []
  upper_ne_nil : upper.members ≠ []
  sorted : ∃ ch, b.extent.FirstWidest Channel.all ch ∧
    StablySorted ch b.members (lower.members ++ upper.members)
  below_middle : (lower.members.dropLast.map (·.count)).sum < (b.population + 1) / 2
  /-- The middle pixel may be in the upper box if that has no other member. -/
  to_middle : (b.population + 1) / 2 ≤ lower.population ∨ ∃ m, upper.members = [m]
  population_eq : lower.population + upper.population = b.population
  lower_measured : lower.Measured
  upper_measured : upper.Measured

/-- A box with two members and a pixel is cut at its middle pixel, whatever colors its members have.
Every box made of members is measured (`measured_ofMembers`), the halves of this one among them. -/
theorem split_halves (h : b.Measured) (hlen : 2 ≤ b.members.length) (hpos : 0 < b.population) :
    Halves b b.split.1 b.split.2 := by
  have hsorted := stablySorted_sortBy b.extent.widest b.members
  have hlength := hsorted.perm.length_eq
  have hsum : populationOf (sortBy b.extent.widest b.members) = b.population := by
    rw [populationOf_perm hsorted.perm, h.population_eq]
    rfl
  obtain ⟨hlower, hupper⟩ := split_ne_nil hlen
  have hparts : b.split.1.members ++ b.split.2.members = sortBy b.extent.widest b.members :=
    List.take_append_drop _ _
  exact {
    lower_ne_nil := hlower
    upper_ne_nil := hupper
    sorted := ⟨b.extent.widest, b.extent.firstWidest_widest, hparts ▸ hsorted⟩
    below_middle := populationOf_dropLast_take_cut (by omega) hpos
    to_middle := middle_le_or_drop_cut (by omega) hsum
    population_eq := by
      rw [← hsum, ← hparts, populationOf_append]
      rfl
    lower_measured := measured_ofMembers hlower
    upper_measured := measured_ofMembers hupper }

/-- A red that most pixels have and two greens without red, as far apart in red as in green. -/
def traffic : List Member :=
  [⟨0, Rgba.solid 200 0 0, 9⟩, ⟨1, Rgba.solid 0 200 9, 1⟩, ⟨2, Rgba.solid 0 100 0, 2⟩]

/-- Of the two widest channels red is the first.  The greens keep their order, and the middle pixel is
in the last member, so the cut is made before it. -/
theorem traffic_halves : (ofMembers traffic).Measured ∧ 2 ≤ traffic.length ∧
    0 < (ofMembers traffic).population ∧
    Halves (ofMembers traffic)
      (ofMembers [⟨1, Rgba.solid 0 200 9, 1⟩, ⟨2, Rgba.solid 0 100 0, 2⟩])
      (ofMembers [⟨0, Rgba.solid 200 0 0, 9⟩]) := by
  have hmeasured : (ofMembers traffic).Measured := measured_ofMembers (by decide)
  have hlen : 2 ≤ traffic.length := by decide
  have hpos : 0 < (ofMembers traffic).population := by decide
  have hsplit : (ofMembers traffic).split =
      (ofMembers [⟨1, Rgba.solid 0 200 9, 1⟩, ⟨2, Rgba.solid 0 100 0, 2⟩],
        ofMembers [⟨0, Rgba.solid 200 0 0, 9⟩]) := by cbv
  have hhalves := split_halves hmeasured hlen hpos
  rw [hsplit] at hhalves
  exact ⟨hmeasured, hlen, hpos, hhalves⟩

end ColorBox

end PaletteBitmap

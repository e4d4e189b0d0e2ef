import Mathlib
import PaletteBitmap.Proofs.Words

/-!
# Cutting boxes in machine words

The median cut in words.  A box has the positions of its members and no more of them, its population
has 64 bits, and how far a channel reaches is a byte.  Colors and counts are looked up each time.

Every box has one form in words (`Box.ofBox`), and each step on that form gives the form of what the
same step gives on the box itself, as long as what the box says of its members is what is looked up
(`Guarded.Boxed`).  Boxes are compared by their scores, so there the guards are needed: scores that
wrapped around would choose another box.
-/

namespace PaletteBitmap

namespace Words

/-! ## Boxes -/

/-- A difference of bytes that stops at zero. -/
def range (low high : UInt8) : UInt8 :=
  if low ≤ high then high - low else 0

structure Box where
  members : List Nat
  population : UInt64
  ranges : Channel → UInt8

namespace Box

def look (entries : List Entry) (i : Nat) : Entry := entries.getD i default

def populationOf (entries : List Entry) (members : List Nat) : UInt64 :=
  members.foldl (fun n i => n + (look entries i).count.toUInt64) 0

def extentOf (entries : List Entry) (members : List Nat) : Extent :=
  members.foldl (fun e i => e.add (look entries i).color) Extent.nothing

def ofMembers (entries : List Entry) (members : List Nat) : Box :=
  let extent := extentOf entries members
  ⟨members, populationOf entries members,
    fun ch => range (extent.low.channel ch) (extent.high.channel ch)⟩

def widest (b : Box) : Channel :=
  [Channel.green, .blue, .alpha].foldl
    (fun best ch => if b.ranges best < b.ranges ch then ch else best) .red

def score (b : Box) : UInt64 :=
  if b.members.length < 2 then 0 else (b.ranges b.widest).toUInt64 * b.population

/-- Half of the pixels, rounded up; nothing is added before the division. -/
def half (population : UInt64) : UInt64 :=
  if 0 < population % 2 then population / 2 + 1 else population / 2

def reach (entries : List Entry) (half running : UInt64) : List Nat → Nat
  | [] => 0
  | i :: rest =>
    let running := running + (look entries i).count.toUInt64
    if half ≤ running then 1 else reach entries half running rest + 1

def sortBy (entries : List Entry) (ch : Channel) (members : List Nat) : List Nat :=
  members.mergeSort fun i j =>
    decide ((look entries i).color.channel ch ≤ (look entries j).color.channel ch)

def split (entries : List Entry) (b : Box) : Box × Box :=
  let sorted := sortBy entries b.widest b.members
  let k := max 1 (min (reach entries (half b.population) 0 sorted) (sorted.length - 1))
  (ofMembers entries (sorted.take k), ofMembers entries (sorted.drop k))

def bestFrom (i : Nat) (best : Option (Nat × UInt64)) : List Box → Option (Nat × UInt64)
  | [] => best
  | b :: rest =>
    let s := b.score
    let better : Bool := match best with
      | none => decide (0 < s)
      | some (_, top) => decide (top < s)
    bestFrom (i + 1) (if better then some (i, s) else best) rest

def best? (boxes : List Box) : Option Nat := (bestFrom 0 none boxes).map (·.1)

def splitAt (entries : List Entry) (boxes : List Box) (i : Nat) : List Box :=
  match boxes[i]? with
  | none => boxes
  | some b =>
    let halves := b.split entries
    boxes.take i ++ halves.1 :: halves.2 :: boxes.drop (i + 1)

def splitTimes (entries : List Entry) : Nat → List Box → List Box
  | 0, boxes => boxes
  | n + 1, boxes =>
    match best? boxes with
    | none => boxes
    | some i => splitTimes entries n (splitAt entries boxes i)

/-- A box in words. -/
def ofBox (b : ColorBox) : Box :=
  ⟨b.members.map (·.position), UInt64.ofNat b.population,
    fun ch => range (b.extent.low.channel ch) (b.extent.high.channel ch)⟩

end Box

def mark (assignment : Array Nat) (cluster : Nat) (b : Box) : Array Nat :=
  b.members.foldl (fun a i => a.setIfInBounds i cluster) assignment

def medianCut (entries : List Entry) (maxBoxes : Nat) : Clustering :=
  if entries.isEmpty || maxBoxes == 0 then ⟨[], 0⟩
  else
    let boxes := Box.splitTimes entries (maxBoxes - 1)
      [Box.ofMembers entries (List.range entries.length)]
    ⟨(boxes.zipIdx.foldl (fun a (b, i) => mark a i b)
        (Array.replicate entries.length 0)).toList,
      boxes.length⟩

/-! ## Members -/

theorem toNat_range (low high : UInt8) : (range low high).toNat = high.toNat - low.toNat := by
  rw [range]
  split
  · next hle => exact UInt8.toNat_sub_of_le _ _ hle
  · next hlt =>
    have hlt' : high.toNat < low.toNat := UInt8.lt_iff_toNat_lt.1 (UInt8.not_le.1 hlt)
    exact (Nat.sub_eq_zero_of_le (Nat.le_of_lt hlt')).symm

namespace Box

variable {entries : List Entry} {members : List Member} {m : Member}

theorem read_look (h : Guarded.Listed (entries.map Entry.read) m) :
    (look entries m.position).read = ⟨m.color, m.count⟩ := by
  rw [Guarded.Listed, List.getElem?_map] at h
  obtain ⟨e, he, hread⟩ := Option.map_eq_some_iff.1 h
  rw [look, List.getD_eq_getElem?_getD, he]
  exact hread

theorem color_look (h : Guarded.Listed (entries.map Entry.read) m) :
    (look entries m.position).color = m.color :=
  congrArg HistogramEntry.color (read_look h)

theorem toUInt64_count_look (h : Guarded.Listed (entries.map Entry.read) m) :
    (look entries m.position).count.toUInt64 = UInt64.ofNat m.count := by
  have hcount : (look entries m.position).count.toNat = m.count :=
    congrArg HistogramEntry.count (read_look h)
  rw [← hcount, UInt64.ofNat_uInt32ToNat]

theorem populationOf_positions (h : ∀ m ∈ members, Guarded.Listed (entries.map Entry.read) m) :
    populationOf entries (members.map (·.position)) =
      UInt64.ofNat (ColorBox.populationOf members) := by
  -- From the last member on, as the total in words is built up from the first one.
  induction members using List.reverseRecOn with
  | nil => rfl
  | append_singleton members last ih =>
      have hlast := toUInt64_count_look (h last (by simp))
      have hold := ih fun m hm => h m (List.mem_append_left [last] hm)
      rw [populationOf] at hold ⊢
      rw [List.map_append, List.foldl_append, hold, ColorBox.populationOf_concat, UInt64.ofNat_add,
        ← hlast]
      rfl

theorem extentOf_positions (h : ∀ m ∈ members, Guarded.Listed (entries.map Entry.read) m) :
    extentOf entries (members.map (·.position)) = ColorBox.extentOf members := by
  rw [extentOf, ColorBox.extentOf, List.foldl_map]
  apply List.foldl_ext
  intro e m hm
  rw [color_look (h m hm)]

theorem ofMembers_positions (h : ∀ m ∈ members, Guarded.Listed (entries.map Entry.read) m) :
    ofMembers entries (members.map (·.position)) = ofBox (ColorBox.ofMembers members) := by
  rw [ofMembers, populationOf_positions h, extentOf_positions h]
  rfl

theorem sortBy_positions (h : ∀ m ∈ members, Guarded.Listed (entries.map Entry.read) m)
    (ch : Channel) :
    sortBy entries ch (members.map (·.position)) =
      (ColorBox.sortBy ch members).map (·.position) := by
  refine (List.map_mergeSort ?_).symm
  intro m hm n hn
  rw [color_look (h m hm), color_look (h n hn)]

/-! ## The middle pixel -/

theorem toNat_half (population : UInt64) :
    (half population).toNat = (population.toNat + 1) / 2 := by
  have hlt := population.toNat_lt
  have hodd : 0 < population % 2 ↔ 0 < population.toNat % 2 := UInt64.lt_iff_toNat_lt
  rw [half]
  split
  · next h =>
    have hrest := hodd.1 h
    rw [UInt64.toNat_add, UInt64.toNat_div]
    change (population.toNat / 2 + 1) % 2 ^ 64 = _
    omega
  · next h =>
    have hrest : ¬ 0 < population.toNat % 2 := fun hpos => h (hodd.2 hpos)
    rw [UInt64.toNat_div]
    change population.toNat / 2 = _
    omega

theorem reach_of_guarded {half running : UInt64} {k : Nat}
    (hlisted : ∀ m ∈ members, Guarded.Listed (entries.map Entry.read) m)
    (h : Guarded.reach (entries.map Entry.read) half.toNat running.toNat members = some k) :
    reach entries half running (members.map (·.position)) = k := by
  induction members generalizing running k with
  | nil =>
      cases h
      rfl
  | cons m rest ih =>
      have hentry : (entries.map Entry.read)[m.position]? = some ⟨m.color, m.count⟩ :=
        hlisted m List.mem_cons_self
      have hsum : running + (look entries m.position).count.toUInt64 =
          UInt64.ofNat (running.toNat + m.count) := by
        rw [toUInt64_count_look (hlisted m List.mem_cons_self), UInt64.ofNat_add,
          UInt64.ofNat_toNat]
      rw [Guarded.reach, hentry, Option.bind_eq_bind, Option.bind_some] at h
      obtain ⟨next, hnext, h⟩ := Option.bind_eq_some_iff.1 h
      -- The running total has not wrapped around, so it is compared with half as it is.
      have hread : (UInt64.ofNat (running.toNat + m.count)).toNat = next := toNat_of_word64 hnext
      rw [List.map_cons, reach, hsum]
      split at h
      · next hle =>
        cases h
        exact if_pos (UInt64.le_iff_toNat_le.2 (hread.symm ▸ hle))
      · next hlt =>
        obtain ⟨more, hmore, h⟩ := Option.bind_eq_some_iff.1 h
        cases h
        rw [← hread] at hmore hlt
        rw [if_neg fun hle => hlt (UInt64.le_iff_toNat_le.1 hle),
          ih (fun n hn => hlisted n (List.mem_cons_of_mem m hn)) hmore]

/-! ## Splits -/

theorem widest_ofBox (b : ColorBox) : (ofBox b).widest = b.extent.widest := by
  have hlt : ∀ c d, (ofBox b).ranges c < (ofBox b).ranges d ↔ b.extent.width c < b.extent.width d := by
    intro c d
    rw [UInt8.lt_iff_toNat_lt]
    change (range _ _).toNat < (range _ _).toNat ↔ _
    rw [toNat_range, toNat_range]
    rfl
  rw [widest, Extent.widest]
  simp only [hlt]

variable {b : ColorBox}

theorem toNat_score (h : Guarded.Boxed (entries.map Entry.read) b) :
    (ofBox b).score.toNat = b.score := by
  have hguarded := Guarded.score_eq_some h
  rw [Guarded.score] at hguarded
  have hlen : (ofBox b).members.length = b.members.length := List.length_map _
  rw [score, hlen, widest_ofBox]
  split at hguarded
  · next hshort =>
    rw [if_pos hshort, ← Option.some_inj.1 hguarded]
    rfl
  · next hlong =>
    have hproduct : ((ofBox b).ranges b.extent.widest).toUInt64 * (ofBox b).population =
        UInt64.ofNat (b.extent.width b.extent.widest * b.population) := by
      rw [UInt64.ofNat_mul, Extent.width, ← toNat_range, UInt64.ofNat_uInt8ToNat]
      rfl
    rw [if_neg hlong, hproduct, toNat_of_word64 hguarded]

theorem toNat_population (h : Guarded.Boxed (entries.map Entry.read) b) :
    (ofBox b).population.toNat = b.population := by
  have hlt := h.boxable.population_lt
  rw [← h.population_eq] at hlt
  exact UInt64.toNat_ofNat_of_lt' (Nat.lt_trans hlt (by decide))

/-- The halves of a box in words are its halves. -/
theorem split_ofBox (h : Guarded.Boxed (entries.map Entry.read) b) :
    (ofBox b).split entries = (ofBox b.split.1, ofBox b.split.2) := by
  have hperm := ColorBox.sortBy_perm b.extent.widest b.members
  have hsorted := h.boxable.perm hperm
  have hsum := hsorted.population_lt
  have hguarded : Guarded.reach (entries.map Entry.read) (half (ofBox b).population).toNat
      (0 : UInt64).toNat (ColorBox.sortBy b.extent.widest b.members) =
        some (ColorBox.reach ((b.population + 1) / 2) 0
          (ColorBox.sortBy b.extent.widest b.members)) := by
    rw [toNat_half, toNat_population h]
    exact Guarded.reach_eq_some hsorted.listed (show 0 + _ < 2 ^ 64 by omega)
  have hreach := reach_of_guarded hsorted.listed hguarded
  have hpositions : sortBy entries b.extent.widest (ofBox b).members =
      (ColorBox.sortBy b.extent.widest b.members).map (·.position) :=
    sortBy_positions h.boxable.listed _
  rw [split, widest_ofBox, hpositions, hreach, List.length_map, ColorBox.split, ColorBox.cut]
  generalize ColorBox.sortBy b.extent.widest b.members = sorted at hsorted
  generalize max 1 (min _ _) = k
  -- Either half has members of the box only, which are where they are looked up.
  have hlower : ∀ m ∈ sorted.take k, Guarded.Listed (entries.map Entry.read) m :=
    fun m hm => hsorted.listed m (List.mem_of_mem_take hm)
  have hupper : ∀ m ∈ sorted.drop k, Guarded.Listed (entries.map Entry.read) m :=
    fun m hm => hsorted.listed m (List.mem_of_mem_drop hm)
  simp only [← List.map_take, ← List.map_drop, ofMembers_positions hlower,
    ofMembers_positions hupper]

/-! ## The loop of splits -/

/-- Scores that are read as the scores of the boxes choose the same box. -/
theorem bestFrom_ofBox {boxes : List ColorBox}
    (h : ∀ b ∈ boxes, Guarded.Boxed (entries.map Entry.read) b) (i : Nat)
    (best : Option (Nat × UInt64)) :
    (bestFrom i best (boxes.map ofBox)).map (Prod.map id UInt64.toNat) =
      ColorBox.bestFrom i (best.map (Prod.map id UInt64.toNat)) boxes := by
  induction boxes generalizing i best with
  | nil => rfl
  | cons b rest ih =>
      have hscore := toNat_score (h b List.mem_cons_self)
      rw [List.map_cons, bestFrom.eq_def, ColorBox.bestFrom.eq_def]
      simp only [ih fun c hc => h c (List.mem_cons_of_mem b hc)]
      congr 1
      -- The box is the best so far in words just where it is by its score.
      cases best with
      | none =>
          have hpos : 0 < (ofBox b).score ↔ 0 < b.score := hscore ▸ UInt64.lt_iff_toNat_lt
          simp only [Option.map_none, hpos, apply_ite (Option.map _), Option.map_some, Prod.map,
            hscore, id]
      | some top =>
          have hlt : top.2 < (ofBox b).score ↔ top.2.toNat < b.score :=
            hscore ▸ UInt64.lt_iff_toNat_lt
          simp only [Option.map_some, hlt, apply_ite (Option.map _), Prod.map, hscore, id]

theorem best?_ofBox {boxes : List ColorBox}
    (h : ∀ b ∈ boxes, Guarded.Boxed (entries.map Entry.read) b) :
    best? (boxes.map ofBox) = ColorBox.best? boxes := by
  have hbest := bestFrom_ofBox h 0 none
  rw [Option.map_none] at hbest
  rw [best?, ColorBox.best?, ← hbest, Option.map_map]
  rfl

theorem splitAt_ofBox {boxes : List ColorBox} {i : Nat} (hb : boxes[i]? = some b)
    (h : Guarded.Boxed (entries.map Entry.read) b) :
    splitAt entries (boxes.map ofBox) i = (ColorBox.splitAt boxes i).map ofBox := by
  rw [splitAt, List.getElem?_map, hb, ColorBox.splitAt_of_getElem? hb]
  simp only [Option.map_some, split_ofBox h, List.map_append, List.map_cons, List.map_take,
    List.map_drop]

theorem splitTimes_ofBox (n : Nat) {boxes : List ColorBox}
    (h : ∀ b ∈ boxes, Guarded.Boxed (entries.map Entry.read) b) :
    splitTimes entries n (boxes.map ofBox) = (ColorBox.splitTimes n boxes).map ofBox := by
  induction n generalizing boxes with
  | zero => rfl
  | succ n ih =>
      rw [splitTimes, ColorBox.splitTimes, best?_ofBox h]
      cases hbest : ColorBox.best? boxes with
      | none => rfl
      | some i =>
          obtain ⟨b, hb, hlen⟩ := ColorBox.exists_of_best? hbest
          have hboxed := h b (List.mem_of_getElem? hb)
          simp only [splitAt_ofBox hb hboxed]
          -- Both halves are boxes again, as guarded as the one that they come from.
          obtain ⟨-, hlower, hupper⟩ := Guarded.split_eq_some hboxed hlen
          apply ih
          intro c hc
          rcases ColorBox.mem_splitAt hb hc with hold | rfl | rfl
          · exact h c hold
          · exact hlower
          · exact hupper

end Box

/-! ## The cut -/

variable {entries : List Entry}

theorem mark_ofBox (assignment : Array Nat) (cluster : Nat) (b : ColorBox) :
    mark assignment cluster (Box.ofBox b) = Clustering.mark assignment cluster b :=
  List.foldl_map ..

/-- All entries in one box, and that box split so many times. -/
theorem splitTimes_all (h : Guarded.population (entries.map Entry.read) < 2 ^ 32) (n : Nat) :
    Box.splitTimes entries n [Box.ofMembers entries (List.range entries.length)] =
      (ColorBox.splitTimes n
        [ColorBox.ofMembers (Clustering.membersOf (entries.map Entry.read))]).map Box.ofBox := by
  have hmembers := Guarded.boxable_membersOf h
  rw [← Box.splitTimes_ofBox n (by simpa using hmembers.boxed), List.map_singleton,
    ← Box.ofMembers_positions hmembers.listed, Clustering.map_position_membersOf, List.length_map]

theorem medianCut_eq (h : Guarded.population (entries.map Entry.read) < 2 ^ 32) (maxBoxes : Nat) :
    medianCut entries maxBoxes = Clustering.medianCut (entries.map Entry.read) maxBoxes := by
  rw [medianCut, Clustering.medianCut, Clustering.ofBoxes, List.isEmpty_map, splitTimes_all h]
  simp only [List.zipIdx_map, List.foldl_map, List.length_map, Prod.map_fst, Prod.map_snd, id,
    mark_ofBox]

end Words

end PaletteBitmap

import PaletteBitmap.File.Workspace

/-!
# Walks in a changing tree

A walk that arrives somewhere is a derivation, `Walks`, in which every rule looks at one or two
locations only.  So it goes the same way in another tree, as long as the locations where the
trees differ are out of its reach.  There are two reasons why a location can be:

* its name has a slash in it, which no path can spell (`Spelled`);
* nothing that the walk is heading for lies behind it (`Apart`).
-/

namespace PaletteBitmap

/-! ## Names that paths can spell -/

/-- A name without a slash, or no name at all. -/
def Part.IsPlain : Part → Prop
  | .name n => '/' ∉ n.toList
  | _ => True

theorem Path.slash_notMem_of_mem_splitSlash {cs s : List Char} (h : s ∈ splitSlash cs) :
    '/' ∉ s := by
  induction cs generalizing s with
  | nil =>
      have hs : s = [] := by simpa [splitSlash] using h
      simp [hs]
  | cons c cs ih =>
      by_cases hc : c = '/'
      · rw [splitSlash, if_pos hc] at h
        rcases List.mem_cons.1 h with hs | hs
        · simp [hs]
        · exact ih hs
      · rw [splitSlash, if_neg hc] at h
        -- The character joins the first piece of the rest.
        cases hsplit : splitSlash cs with
        | nil =>
            have hs : s = [c] := by simpa [hsplit] using h
            simpa [hs] using Ne.symm hc
        | cons first rest =>
            have hs : s = c :: first ∨ s ∈ rest := by simpa [hsplit] using h
            rcases hs with hs | hs
            · have hfirst : '/' ∉ first := ih (by simp [hsplit])
              simpa [hs, hfirst] using Ne.symm hc
            · exact ih (by simp [hsplit, hs])

theorem Part.isPlain_of_ofText? {s : List Char} {part : Part} (hs : '/' ∉ s)
    (h : ofText? (String.ofList s) = some part) : part.IsPlain := by
  rw [ofText?] at h
  split at h
  · cases h
  · split at h
    · cases h; trivial
    · split at h
      · cases h; trivial
      · cases h
        simpa [IsPlain] using hs

theorem Path.isPlain_of_mem_allParts {p : Path} {part : Part} (h : part ∈ p.allParts) :
    part.IsPlain := by
  obtain ⟨s, hs, hpart⟩ := List.mem_filterMap.1 h
  exact Part.isPlain_of_ofText? (slash_notMem_of_mem_splitSlash hs) hpart

theorem Path.isPlain_of_mem_steps {p : Path} {part : Part} (h : part ∈ p.steps) :
    part.IsPlain := by
  rw [steps] at h
  split at h
  · rcases List.mem_append.1 h with h | h
    · exact isPlain_of_mem_allParts h
    · have hpart : part = .here := by simpa using h
      simp [hpart, Part.IsPlain]
  · exact isPlain_of_mem_allParts h

/-- The parts that a walk goes on with behind a link. -/
theorem Path.isPlain_of_mem_steps_append {p : Path} {rest : List Part}
    (hrest : ∀ part ∈ rest, part.IsPlain) : ∀ part ∈ p.steps ++ rest, part.IsPlain := by
  intro part hpart
  rcases List.mem_append.1 hpart with hpart | hpart
  · exact isPlain_of_mem_steps hpart
  · exact hrest part hpart

theorem Path.mem_allParts_of_mem_parts {p : Path} {part : Part} (h : part ∈ p.parts) :
    part ∈ p.allParts := by
  rw [parts] at h
  split at h
  · cases h
  · rename_i first rest hparts
    have hrest : ∀ x ∈ rest.filter (· ≠ .here), x ∈ p.allParts := by
      intro x hx
      simp [hparts, (List.mem_filter.1 hx).1]
    split at h
    · exact hrest part h
    · rcases List.mem_cons.1 h with h | h
      · simp [hparts, h]
      · exact hrest part h

theorem Path.isPlain_of_mem_parentParts {p : Path} {part : Part} (h : part ∈ p.parentParts) :
    part.IsPlain :=
  isPlain_of_mem_allParts (mem_allParts_of_mem_parts (List.dropLast_subset _ h))

/-- A location that a walk can lead to when it starts among the given names. -/
def Spelled (names : List String) (l : Location) : Prop :=
  ∀ n ∈ l, n ∈ names ∨ '/' ∉ n.toList

namespace Spelled

variable {names : List String} {l : Location} {n : String}

theorem nil : Spelled names [] := by simp [Spelled]

theorem dropLast (h : Spelled names l) : Spelled names l.dropLast :=
  fun n hn => h n (List.dropLast_subset _ hn)

theorem concat (h : Spelled names l) (hn : '/' ∉ n.toList) : Spelled names (l ++ [n]) := by
  intro m hm
  rcases List.mem_append.1 hm with hm | hm
  · exact h m hm
  · have hmn : m = n := by simpa using hm
    exact .inr (hmn ▸ hn)

theorem base (h : Spelled names l) (target : Path) :
    Spelled names (if target.isAbsolute then [] else l) := by
  split
  · exact .nil
  · exact h

end Spelled

namespace FileTree

/-! ## Walks that arrive -/

/-- Parts lead from one location to another, over no more than the given number of links. -/
inductive Walks (t : FileTree) : Nat → Location → List Part → Location → Prop where
  | done {links l} : Walks t links l [] l
  | here {links l rest m} :
      t.get? l = some .dir → Walks t links l rest m → Walks t links l (.here :: rest) m
  | up {links l rest m} :
      t.get? l = some .dir → Walks t links l.dropLast rest m → Walks t links l (.up :: rest) m
  | new {links l n} :
      t.get? l = some .dir → (Part.name n).isTooLong = false → t.get? (l ++ [n]) = none →
        Walks t links l [.name n] (l ++ [n])
  | follow {links l n rest m target} :
      t.get? l = some .dir → (Part.name n).isTooLong = false →
        t.get? (l ++ [n]) = some (.link target) →
        Walks t links (if target.isAbsolute then [] else l) (target.steps ++ rest) m →
        Walks t (links + 1) l (.name n :: rest) m
  | enter {links l n rest m e} :
      t.get? l = some .dir → (Part.name n).isTooLong = false → t.get? (l ++ [n]) = some e →
        (∀ target, e ≠ .link target) → Walks t links (l ++ [n]) rest m →
        Walks t links l (.name n :: rest) m

variable {t u : FileTree} {links j k : Nat} {l m d x : Location} {parts rest a b : List Part}

theorem walk_of_walks (h : Walks t links l parts m) : t.walk links l parts = .ok m := by
  induction h with
  | done => rw [walk.eq_def]
  | here hl _ ih => simpa [walk, hl] using ih
  | up hl _ ih => simpa [walk, hl] using ih
  | new hl hn hnext => simp [walk, hl, hn, hnext]
  | follow hl hn hnext _ ih => simpa [walk, hl, hn, hnext] using ih
  | @enter _ _ _ _ _ e hl hn hnext he _ ih =>
      cases e with
      | link target => exact absurd rfl (he target)
      | dir => simpa [walk, hl, hn, hnext] using ih
      | file data => simpa [walk, hl, hn, hnext] using ih

theorem walks_of_walk (h : t.walk links l parts = .ok m) : Walks t links l parts m := by
  induction links, l, parts using walk.induct t with
  | case1 links l =>
      rw [walk.eq_def] at h
      cases h
      exact .done
  | case2 _ _ _ _ hl => simp [walk.eq_def, hl] at h
  | case3 _ _ _ _ _ hl => simp [walk.eq_def, hl] at h
  | case4 _ _ _ _ _ hl => simp [walk.eq_def, hl] at h
  | case5 links l rest hl ih => exact .here hl (ih (by simpa [walk, hl] using h))
  | case6 links l rest hl ih => exact .up hl (ih (by simpa [walk, hl] using h))
  | case7 _ _ _ hl n hn => simp [walk, hl, hn] at h
  | case8 links l hl n next hnext hn =>
      have hm : l ++ [n] = m := by simpa [walk, hl, hn, next, hnext] using h
      exact hm ▸ .new hl (by simpa using hn) hnext
  | case9 _ _ rest hl n next hnext hrest hn => simp [walk, hl, hn, next, hnext, hrest] at h
  | case10 _ _ hl n next target hnext hn => simp [walk, hl, hn, next, hnext] at h
  | case11 l rest hl n next target hnext links hn ih =>
      exact .follow hl (by simpa using hn) hnext (ih (by simpa [walk, hl, hn, next, hnext] using h))
  | case12 links l rest hl n next e he hnext hn ih =>
      refine .enter hl (by simpa using hn) hnext (fun target h => he target h) (ih ?_)
      cases e with
      | link target => exact absurd rfl (he target)
      | dir => simpa [walk, hl, hn, next, hnext] using h
      | file data => simpa [walk, hl, hn, next, hnext] using h

theorem walk_eq_ok_iff : t.walk links l parts = .ok m ↔ Walks t links l parts m :=
  ⟨walks_of_walk, walk_of_walks⟩

namespace Walks

/-- From what is no directory there is no way on. -/
theorem eq_of_not_dir (h : Walks t links l parts m) (hl : t.get? l ≠ some .dir) : m = l := by
  cases h with
  | done => rfl
  | here hdir => exact absurd hdir hl
  | up hdir => exact absurd hdir hl
  | new hdir => exact absurd hdir hl
  | follow hdir => exact absurd hdir hl
  | enter hdir => exact absurd hdir hl

theorem spelled {names : List String} (h : Walks t links l parts m) (hl : Spelled names l)
    (hparts : ∀ part ∈ parts, part.IsPlain) : Spelled names m := by
  induction h with
  | done => exact hl
  | here _ _ ih => exact ih hl fun part hpart => hparts part (List.mem_cons_of_mem _ hpart)
  | up _ _ ih =>
      exact ih hl.dropLast fun part hpart => hparts part (List.mem_cons_of_mem _ hpart)
  | new => exact hl.concat (hparts _ List.mem_cons_self)
  | @follow _ l n rest m target _ _ _ _ ih =>
      exact ih (hl.base target) (Path.isPlain_of_mem_steps_append
        fun part hpart => hparts part (List.mem_cons_of_mem _ hpart))
  | enter _ _ _ _ _ ih =>
      exact ih (hl.concat (hparts _ List.mem_cons_self))
        fun part hpart => hparts part (List.mem_cons_of_mem _ hpart)

/-- A walk over something that stands there goes on from it.  How many links are left for the
way on is not said, so the way on must do without. -/
theorem append {e : Entry} (h : Walks t links l a d) (hd : t.get? d = some e)
    (hon : ∀ k, Walks t k d b m) : Walks t links l (a ++ b) m := by
  induction h with
  | done => exact hon _
  | here hl _ ih => exact .here hl (ih hd hon)
  | up hl _ ih => exact .up hl (ih hd hon)
  | new _ _ hnext => simp [hnext] at hd
  | follow hl hn hnext _ ih =>
      refine .follow hl hn hnext ?_
      simpa using ih hd hon
  | enter hl hn hnext he _ ih => exact .enter hl hn hnext he (ih hd hon)

theorem name_cases {n : String} (h : Walks t k l (.name n :: rest) m) :
    (rest = [] ∧ m = l ++ [n] ∧ t.get? (l ++ [n]) = none) ∨
    (∃ target i, t.get? (l ++ [n]) = some (.link target) ∧
      Walks t i (if target.isAbsolute then [] else l) (target.steps ++ rest) m) ∨
    (∃ e, t.get? (l ++ [n]) = some e ∧ (∀ target, e ≠ .link target) ∧
      Walks t k (l ++ [n]) rest m) := by
  cases h with
  | new _ _ hnext => exact .inl ⟨rfl, rfl, hnext⟩
  | follow _ _ hnext hrest => exact .inr (.inl ⟨_, _, hnext, hrest⟩)
  | enter _ _ hnext he hrest => exact .inr (.inr ⟨_, hnext, he, hrest⟩)

/-- Where the first parts of a walk lead does not depend on the number of links allowed. -/
theorem exists_of_append (h : Walks t j l a d) (hab : Walks t k l (a ++ b) m) :
    ∃ i, Walks t i d b m := by
  induction h generalizing k with
  | done => exact ⟨k, hab⟩
  | here _ _ ih =>
      cases hab with
      | here _ hrest => exact ih hrest
  | up _ _ ih =>
      cases hab with
      | up _ hrest => exact ih hrest
  | new _ _ hnext =>
      rcases name_cases hab with ⟨hb, hm, _⟩ | ⟨_, _, hlink, _⟩ | ⟨_, hsome, _⟩
      · have hb : b = [] := by simpa using hb
        subst hb hm
        exact ⟨0, .done⟩
      · simp [hnext] at hlink
      · simp [hnext] at hsome
  | @follow _ _ _ _ _ target _ _ hnext _ ih =>
      -- The other walk cannot but follow the same link.
      rcases name_cases hab with ⟨_, _, hnone⟩ | ⟨target', i, hlink, hrest⟩ | ⟨_, hsome, he, _⟩
      · simp [hnext] at hnone
      · have htarget : target' = target := by simpa [hnext] using hlink.symm
        subst htarget
        exact ih (by simpa using hrest)
      · exact absurd (Option.some.inj (hsome.symm.trans hnext)) (he _)
  | enter _ _ hnext he _ ih =>
      rcases name_cases hab with ⟨_, _, hnone⟩ | ⟨_, _, hlink, _⟩ | ⟨_, _, _, hrest⟩
      · simp [hnext] at hnone
      · exact absurd (Option.some.inj (hnext.symm.trans hlink)) (he _)
      · exact ih hrest

end Walks

/-! ## Walks in another tree -/

/-- Nothing that heads for `m` comes past `x`: no directory stands there, and a link there
leads elsewhere. -/
structure Apart (t : FileTree) (x m : Location) : Prop where
  ne : x ≠ m
  not_dir : t.get? x ≠ some .dir
  elsewhere : ∀ target, t.get? x = some (.link target) → ∀ links rest,
    ¬ Walks t links (if target.isAbsolute then [] else x.dropLast) (target.steps ++ rest) m

/-- The directory that a step starts from stands in the other tree, too. -/
theorem Apart.dir_frame (h : u.get? x = t.get? x ∨ t.Apart x m) (hdir : t.get? x = some .dir) :
    u.get? x = some .dir := by
  rcases h with heq | hapart
  · rw [heq, hdir]
  · exact absurd hdir hapart.not_dir

/-- A walk goes the same way in a tree that differs only where the walk does not come past. -/
theorem Walks.frame {names : List String} (h : Walks t links l parts m)
    (hl : Spelled names l) (hparts : ∀ part ∈ parts, part.IsPlain)
    (hsame : ∀ x, Spelled names x → u.get? x = t.get? x ∨ t.Apart x m) :
    Walks u links l parts m := by
  induction h with
  | done => exact .done
  | @here _ l _ _ hdir _ ih =>
      exact .here (Apart.dir_frame (hsame l hl) hdir)
        (ih hl (fun part hpart => hparts part (List.mem_cons_of_mem _ hpart)) hsame)
  | @up _ l _ _ hdir _ ih =>
      exact .up (Apart.dir_frame (hsame l hl) hdir)
        (ih hl.dropLast (fun part hpart => hparts part (List.mem_cons_of_mem _ hpart)) hsame)
  | @new _ l n hdir hn hnext =>
      -- The end of the walk is not where the trees differ.
      refine .new (Apart.dir_frame (hsame l hl) hdir) hn ?_
      rcases hsame _ (hl.concat (hparts _ List.mem_cons_self)) with heq | hapart
      · rw [heq, hnext]
      · exact absurd rfl hapart.ne
  | @follow _ l n rest m target hdir hn hnext hrest ih =>
      -- Where the trees differ, the link would be one that `m` does not lie behind.
      have hon : ∀ part ∈ target.steps ++ rest, part.IsPlain :=
        Path.isPlain_of_mem_steps_append
          fun part hpart => hparts part (List.mem_cons_of_mem _ hpart)
      refine .follow (Apart.dir_frame (hsame l hl) hdir) hn ?_ (ih (hl.base target) hon hsame)
      rcases hsame _ (hl.concat (hparts _ List.mem_cons_self)) with heq | hapart
      · rw [heq, hnext]
      · exact absurd hrest (by simpa using hapart.elsewhere target hnext _ rest)
  | @enter _ l n rest m e hdir hn hnext he hrest ih =>
      -- Where the trees differ, no directory stands, so the walk would have to end there.
      have hin := hl.concat (hparts _ List.mem_cons_self)
      refine .enter (Apart.dir_frame (hsame l hl) hdir) hn ?_ he
        (ih hin (fun part hpart => hparts part (List.mem_cons_of_mem _ hpart)) hsame)
      rcases hsame _ hin with heq | hapart
      · rw [heq, hnext]
      · exact absurd (hrest.eq_of_not_dir hapart.not_dir) hapart.ne.symm

/-- No way to a directory leads past `x`: what stands there is none, and a link there ends at
something that is none. -/
structure Impassable (t : FileTree) (x : Location) : Prop where
  not_dir : t.get? x ≠ some .dir
  link_end : ∀ target, t.get? x = some (.link target) → ∃ links f,
    Walks t links (if target.isAbsolute then [] else x.dropLast) target.steps f ∧
      t.get? f ≠ some .dir

theorem Impassable.apart (h : t.Impassable x) (hm : t.get? m = some .dir) : t.Apart x m where
  ne := by
    intro hx
    exact h.not_dir (hx ▸ hm)
  not_dir := h.not_dir
  elsewhere := by
    intro target htarget links rest hwalks
    obtain ⟨k, f, hf, hnot⟩ := h.link_end target htarget
    -- The walk comes to the end of the link first and cannot go on from there.
    obtain ⟨i, hon⟩ := hf.exists_of_append hwalks
    have hmf : m = f := hon.eq_of_not_dir hnot
    exact hnot (hmf ▸ hm)

theorem impassable_of_none (h : t.get? x = none) : t.Impassable x where
  not_dir := by simp [h]
  link_end := by simp [h]

end FileTree

end PaletteBitmap

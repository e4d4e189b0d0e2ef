import Mathlib
import PaletteBitmap.Proofs.Commit

/-!
# What a commit changes

A commit touches two entries, those that the paths of the pair name, and temporary files that no
path leads to.  For every outcome, what stands at any other place that a path can lead to stays
(`commit_frame`).  After a commit that succeeds, both files stand in their places and nothing is
left beside them (`Delivered`), unless a link stood there that something else was reached through.
-/

namespace PaletteBitmap

theorem FileTree.impassable_of_file {t : FileTree} {x : Location} {data : List UInt8}
    (h : t.get? x = some (.file data)) : t.Impassable x where
  not_dir := by simp [h]
  link_end := by simp [h]

namespace Workspace

variable {w v u : Workspace} {p : Path} {t : Temporary} {l m : Location} {data : List UInt8}
  {but : List Location}

/-! ## Reading and moving -/

theorem read_eq_ok_iff : w.read p = .ok data ↔ ∃ f, refusal? p = none ∧
    w.tree.Walks FileTree.maxLinks (w.start p) p.steps f ∧
    w.tree.get? f = some (.file data) := by
  simp only [read, find, reach, ← FileTree.walk_eq_ok_iff]
  cases refusal? p with
  | some e => simp
  | none =>
      cases w.tree.walk FileTree.maxLinks (w.start p) p.steps with
      | error e => simp
      | ok f =>
          cases hf : w.tree.get? f with
          | none => simp [hf]
          | some e => cases e <;> simp [hf]

theorem read_of_slot (h : w.slot p = .ok l) (hl : w.tree.get? l = some (.file data)) :
    w.read p = .ok data := by
  obtain ⟨d, n, hnames, hwalks, hd, rfl⟩ := slot_eq_ok_iff.1 h
  refine read_eq_ok_iff.2 ⟨d ++ [n], hnames.refusal, ?_, hl⟩
  rw [hnames.steps_eq]
  exact hwalks.append hd fun k => .enter hd hnames.short hl (by simp) .done

theorem exists_of_persist (h : v.persist t p = .ok u) : ∃ m l e, v.locate t = .ok m ∧
    v.slot p = .ok l ∧ v.tree.get? m = some e ∧ v.tree.get? l ≠ some .dir ∧
    u = v.moved m l e := by
  rw [persist] at h
  split at h
  · cases h
  · rename_i m hm
    rw [moveTo] at h
    split at h
    · cases h
    · rename_i l hl
      split at h
      · cases h
      · rename_i e he
        split at h
        · cases h
        · rename_i hdir
          cases h
          exact ⟨m, l, e, hm, hl, he, hdir, rfl⟩

theorem Alike.locate_back (h : Alike w v but) (hbut : ∀ x ∈ but, v.tree.Impassable x)
    (hl : v.locate t = .ok l) : w.locate t = .ok l := by
  rw [Workspace.locate] at hl ⊢
  split at hl
  · cases hl
  · rename_i d hd
    rw [h.directory_back hbut hd]
    exact hl

@[simp]
theorem current_drop (v : Workspace) (t : Temporary) : (v.drop t).current = v.current := by
  rw [drop]
  split
  · rfl
  · rfl

theorem exists_of_remove (h : v.remove p = .ok u) :
    ∃ l, v.slot p = .ok l ∧ u = v.withTree (v.tree.erase l) := by
  rw [remove] at h
  split at h
  · cases h
  · rename_i l hl
    split at h
    · cases h
    · cases h
    · cases h
      exact ⟨l, hl, rfl⟩

theorem get?_drop_of_ne (h : ∀ x, v.locate t = .ok x → m ≠ x) :
    (v.drop t).tree.get? m = v.tree.get? m := by
  rw [drop]
  split
  · rfl
  · rename_i x hx
    simp [discard, withTree, FileTree.get?_erase, h x hx]

/-- A path names no link, whatever else it names. -/
def NamesNoLink (w : Workspace) (p : Path) : Prop :=
  ∀ l target, w.slot p = .ok l → w.tree.get? l ≠ some (.link target)

theorem namesNoLink_of_slot {x : Option Entry} (h : w.slot p = .ok l)
    (hl : w.tree.get? l = x) (hx : ∀ target, x ≠ some (.link target)) : w.NamesNoLink p := by
  intro m target hm
  cases h.symm.trans hm
  exact hl ▸ hx target

theorem NamesNoLink.impassable (h : w.NamesNoLink p) (hl : w.slot p = .ok l)
    (hdir : w.tree.get? l ≠ some .dir) : w.tree.Impassable l :=
  ⟨hdir, fun target htarget => absurd htarget (h l target hl)⟩

end Workspace

namespace OutputPair

open Workspace

variable {w v u w' : Workspace} {out : OutputPair} {s₁ s₂ : Temporary}
  {previous : Option Temporary} {l m l₁ l₂ lq d : Location} {a b : List UInt8} {p q : Path}

/-! ## The image in its place -/

/-- In `u` the image has come to its place, and the palette is staged.  What stood there before
the image may have been set aside. -/
structure Placed (w u : Workspace) (p : Path) (s₂ : Temporary) (previous : Option Temporary)
    (l l₂ : Location) (a b : List UInt8) : Prop where
  slot : w.slot p = .ok l
  not_dir : w.tree.get? l ≠ some .dir
  spare : w.Spare s₂ l₂
  aside : ∀ t ∈ previous, ∃ l₃, w.Spare t l₃ ∧ l₃ ≠ l₂
  alike : Alike w u [l]
  image : u.tree.get? l = some (.file a)
  palette : u.tree.get? l₂ = some (.file b)
  others : ∀ m, m ≠ l → m ≠ l₂ → (∀ t ∈ previous, w.locate t ≠ .ok m) →
    u.tree.get? m = w.tree.get? m

theorem Aside.placed {t : Temporary} {l₃ : Location} {x : Entry}
    (h : Aside w u p s₁ s₂ t l₁ l₂ l₃ l a b x) :
    Placed w (u.moved l₁ l (.file a)) p s₂ (some t) l l₂ a b where
  slot := h.slot
  not_dir := h.impassable.not_dir
  spare := h.spare₂
  aside := by simpa using ⟨l₃, h.spare₃, h.ne₂₃.symm⟩
  alike := h.alike.moved (.inr h.spare₁.not_spelled) (.inl (by simp))
  image := by simp [get?_moved (ne_nil_of_slot h.slot) h.spare₁.ne_nil]
  palette := by
    simp [get?_moved (ne_nil_of_slot h.slot) h.spare₁.ne_nil, h.get?, h.ne₁₂.symm, h.ne₂₃,
      (h.spare₂.ne_slot h.slot).symm]
  others := by
    intro m hm hm₂ hnot
    have hm₃ : m ≠ l₃ := by
      intro heq
      exact hnot t rfl (heq ▸ h.spare₃.locate)
    rw [get?_moved (ne_nil_of_slot h.slot) h.spare₁.ne_nil, if_neg hm]
    by_cases hm₁ : m = l₁
    · simp [hm₁, h.spare₁.empty]
    · simp [h.get?, hm, hm₁, hm₂, hm₃]

theorem placed_of_not_isFile (h : Staged w v s₁ s₂ l₁ l₂ a b) (hslot : w.slot p = .ok l)
    (hl : w.tree.get? l ≠ some .dir) :
    Placed w (v.moved l₁ l (.file a)) p s₂ none l l₂ a b where
  slot := hslot
  not_dir := hl
  spare := h.spare₂
  aside := by simp
  alike := (h.alike.mono (by simp)).moved (.inr h.spare₁.not_spelled) (.inl (by simp))
  image := by simp [get?_moved (ne_nil_of_slot hslot) h.spare₁.ne_nil]
  palette := by
    simp [get?_moved (ne_nil_of_slot hslot) h.spare₁.ne_nil, h.get?, h.ne.symm,
      (h.spare₂.ne_slot hslot).symm]
  others := by
    intro m hm hm₂ _
    rw [get?_moved (ne_nil_of_slot hslot) h.spare₁.ne_nil, if_neg hm]
    by_cases hm₁ : m = l₁
    · simp [hm₁, h.spare₁.empty]
    · simp [h.get?, hm₁, hm₂]

theorem Placed.impassable (h : Placed w u p s₂ previous l l₂ a b) :
    ∀ x ∈ [l], u.tree.Impassable x := by
  simpa using FileTree.impassable_of_file h.image

/-- Where the palette is moved to is where its path led at first. -/
theorem Placed.exists_of_persist (h : Placed w u p s₂ previous l l₂ a b)
    (hpersist : u.persist s₂ q = .ok v) :
    ∃ lq, w.slot q = .ok lq ∧ w.tree.get? lq ≠ some .dir ∧ v = u.moved l₂ lq (.file b) := by
  obtain ⟨m, lq, e, hlocate, hslot, he, hdir, hv⟩ := Workspace.exists_of_persist hpersist
  have hm : m = l₂ := by
    have hback := h.alike.locate_back h.impassable hlocate
    simpa [h.spare.locate] using hback.symm
  have hslot' : w.slot q = .ok lq := h.alike.slot_back h.impassable hslot
  have hentry : e = .file b := by
    simpa [hm, h.palette] using he.symm
  refine ⟨lq, hslot', ?_, by rw [hv, hm, hentry]⟩
  rcases h.alike.get? lq (spelled_of_slot hslot') with heq | hmem
  · rwa [← heq]
  · have hlq : lq = l := by simpa using hmem
    exact hlq ▸ h.not_dir

theorem exists_placed (h : Staged w v s₁ s₂ l₁ l₂ a b) (hd : w.directory out.image = .ok d)
    (hok : promote v out s₁ s₂ = (.ok (), w')) :
    ∃ u previous l, Placed w u out.image s₂ previous l l₂ a b ∧
      ∃ x, u.persist s₂ out.palette = .ok x ∧ w' = previous.elim x x.drop := by
  -- A promotion that succeeds has brought the image to its place first, whether or not there was
  -- a file to set aside.
  cases hfile : w.isFile out.image with
  | true =>
      cases hslot : w.slot out.image with
      | error x =>
          have hslot' : ∀ l, v.slot out.image ≠ .ok l := by
            intro l hl
            simpa [hslot] using h.alike.slot_back (by simp) hl
          obtain ⟨y, hy⟩ := setAside_error hslot' (by rw [h.alike.isFile_eq, hfile])
          simp [promote, hy] at hok
      | ok l =>
          obtain ⟨u, t, l₃, x, hset, haside⟩ := setAside_of_isFile h hslot hfile hd
          simp only [promote, hset, haside.persist_image] at hok
          split at hok
          · cases hok
          · rename_i y hy
            exact ⟨_, _, _, haside.placed, y, hy, by cases hok; rfl⟩
  | false =>
      have hset : Output.setAside v out.image = .ok (v, none) := by
        simp [Output.setAside, h.alike.isFile_eq, hfile]
      simp only [promote, hset] at hok
      split at hok
      · cases hok
      · rename_i u hu
        obtain ⟨m, l, e, hlocate, hslot, he, hdir, hmoved⟩ := Workspace.exists_of_persist hu
        have hm : m = l₁ := by simpa [h.locate] using hlocate.symm
        have hentry : e = .file a := by simpa [hm, h.get?_staged] using he.symm
        have hslot' : w.slot out.image = .ok l := h.alike.slot_back (by simp) hslot
        rw [h.get?_slot hslot'] at hdir
        split at hok
        · cases hok
        · rename_i x hx
          refine ⟨u, none, l, ?_, x, hx, by cases hok; rfl⟩
          rw [hmoved, hm, hentry]
          exact placed_of_not_isFile h hslot' hdir

/-! ## Both files in their places -/

namespace Placed

theorem alike_moved_palette (h : Placed w u p s₂ previous l l₂ a b) :
    Alike w (u.moved l₂ lq (.file b)) [l, lq] :=
  (h.alike.mono (by simp)).moved (.inr h.spare.not_spelled) (.inl (by simp))

variable (h : Placed w u p s₂ previous l l₂ a b) (hq : w.slot q = .ok lq)
include h hq

theorem get?_moved_palette (m : Location) : (u.moved l₂ lq (.file b)).tree.get? m =
    if m = lq then some (.file b) else if m = l₂ then none else u.tree.get? m :=
  get?_moved (ne_nil_of_slot hq) h.spare.ne_nil m

theorem impassable_moved_palette :
    ∀ x ∈ [l, lq], (u.moved l₂ lq (.file b)).tree.Impassable x := by
  intro x hx
  have hcases : x = l ∨ x = lq := by simpa using hx
  by_cases hlq : x = lq
  · have hfile : (u.moved l₂ lq (.file b)).tree.get? x = some (.file b) := by
      simp [h.get?_moved_palette hq, hlq]
    exact FileTree.impassable_of_file hfile
  · have hl : x = l := hcases.resolve_right hlq
    have hfile : (u.moved l₂ lq (.file b)).tree.get? x = some (.file a) := by
      rw [h.get?_moved_palette hq, if_neg hlq, hl, if_neg (h.spare.ne_slot h.slot), h.image]
    exact FileTree.impassable_of_file hfile

/-- What was set aside is removed from where it was put, if from anywhere. -/
theorem get?_settled {m : Location} (hm : ∀ t ∈ previous, w.locate t ≠ .ok m) :
    (previous.elim (u.moved l₂ lq (.file b)) (u.moved l₂ lq (.file b)).drop).tree.get? m =
      (u.moved l₂ lq (.file b)).tree.get? m := by
  cases previous with
  | none => rfl
  | some t =>
      refine get?_drop_of_ne fun x hx hmx => hm t rfl ?_
      rw [hmx]
      exact h.alike_moved_palette.locate_back (h.impassable_moved_palette hq) hx

theorem get?_settled_of_spelled {m : Location} (hm : Spelled w.names m) (hml : m ≠ l)
    (hmq : m ≠ lq) :
    (previous.elim (u.moved l₂ lq (.file b)) (u.moved l₂ lq (.file b)).drop).tree.get? m =
      w.tree.get? m := by
  have hm₂ : m ≠ l₂ := fun heq => h.spare.not_spelled (heq ▸ hm)
  have haside : ∀ t ∈ previous, w.locate t ≠ .ok m := by
    intro t ht hlocate
    obtain ⟨l₃, hspare, -⟩ := h.aside t ht
    have hl₃ : l₃ = m := by simpa [hspare.locate] using hlocate
    exact hspare.not_spelled (hl₃ ▸ hm)
  rw [h.get?_settled hq haside, h.get?_moved_palette hq, if_neg hmq, if_neg hm₂,
    h.others m hml hm₂ haside]

/-- Where neither path names a link, nothing at all is left behind. -/
theorem get?_settled_of_impassable (hne : l ≠ lq)
    (hbut : ∀ x ∈ [l, lq], w.tree.Impassable x) (m : Location) :
    (previous.elim (u.moved l₂ lq (.file b)) (u.moved l₂ lq (.file b)).drop).tree.get? m =
      if m = l then some (.file a) else if m = lq then some (.file b) else w.tree.get? m := by
  have hhidden : ∀ l₃, ¬ Spelled w.names l₃ → l₃ ≠ l ∧ l₃ ≠ lq := fun l₃ hnot =>
    ⟨fun heq => hnot (heq ▸ spelled_of_slot h.slot), fun heq => hnot (heq ▸ spelled_of_slot hq)⟩
  by_cases haside : ∀ t ∈ previous, w.locate t ≠ .ok m
  · rw [h.get?_settled hq haside, h.get?_moved_palette hq]
    by_cases hml : m = l
    · simp [hml, hne, h.image, (h.spare.ne_slot h.slot)]
    · by_cases hm₂ : m = l₂
      · simp [hm₂, (hhidden l₂ h.spare.not_spelled).1, (hhidden l₂ h.spare.not_spelled).2,
          h.spare.empty]
      · simp [hml, hm₂, h.others m hml hm₂ haside]
  · -- This is where the entry had been set aside, and it is gone.
    obtain ⟨t, ht, hlocate⟩ : ∃ t, previous = some t ∧ w.locate t = .ok m := by
      simpa using haside
    obtain ⟨l₃, hspare, -⟩ := h.aside t ht
    have hl₃ : l₃ = m := by simpa [hspare.locate] using hlocate
    subst hl₃
    have hgone := h.alike_moved_palette.locate hbut hspare.locate
    rw [ht, Option.elim_some, drop_eq hgone]
    simp [withTree, FileTree.get?_erase, hspare.ne_nil, (hhidden l₃ hspare.not_spelled).1,
      (hhidden l₃ hspare.not_spelled).2, hspare.empty]

end Placed

/-! ## Outcomes of a commit -/

/-- Either a file cannot be staged and nothing happens, or both are. -/
theorem commit_cases (w : Workspace) (out : OutputPair) (image palette : List UInt8) :
    ((commit w out image palette).1 ≠ .ok () ∧
      ∀ m, (commit w out image palette).2.tree.get? m = w.tree.get? m) ∨
    ∃ v s₁ s₂ l₁ l₂ d, w.directory out.image = .ok d ∧ Staged w v s₁ s₂ l₁ l₂ image palette ∧
      commit w out image palette = promote v out s₁ s₂ := by
  cases h₁ : w.directory out.image with
  | error x => exact .inl (by simp [commit, stage, h₁])
  | ok d =>
      cases h₂ : w.directory out.palette with
      | ok d₂ =>
          obtain ⟨v, s₁, s₂, l₁, l₂, hstaged, hcommit⟩ := exists_staged image palette h₁ h₂
          exact .inr ⟨v, s₁, s₂, l₁, l₂, d, rfl, hstaged, hcommit⟩
      | error x =>
          refine .inl ⟨?_, commit_of_no_palette_dir h₁ (by simp [h₂])⟩
          -- The image staged first does not give the palette a directory.
          have hspare := (hidden_freshName w).spare h₁
          have halike : Alike w (w.withTree (w.tree.put (d ++ [w.freshName]) (.file image))) [] :=
            (Alike.refl w).put (.inr hspare.not_spelled)
          cases hdir : (w.withTree (w.tree.put (d ++ [w.freshName]) (.file image))).directory
              out.palette with
          | ok d' => simpa [h₂] using halike.directory_back (by simp) hdir
          | error y =>
              have hstage : (w.withTree (w.tree.put (d ++ [w.freshName]) (.file image))).stage
                  out.palette palette = .error y := by
                simp [stage, hdir]
              simp [commit, stage_eq_ok h₁, hstage]

/-- The two files of a pair stand in their places, and nothing else has changed. -/
structure Delivered (w w' : Workspace) (out : OutputPair) (image palette : List UInt8) :
    Prop where
  places : ∃ l₁ l₂, w.slot out.image = .ok l₁ ∧ w.slot out.palette = .ok l₂ ∧ l₁ ≠ l₂ ∧
    ∀ m, w'.tree.get? m =
      if m = l₁ then some (.file image) else if m = l₂ then some (.file palette)
      else w.tree.get? m
  image : w'.read out.image = .ok image
  palette : w'.read out.palette = .ok palette

theorem promote_delivered (h : Staged w v s₁ s₂ l₁ l₂ a b) (hd : w.directory out.image = .ok d)
    (hne : ∀ l, w.slot out.image = .ok l → w.slot out.palette ≠ .ok l)
    (himage : w.NamesNoLink out.image) (hpalette : w.NamesNoLink out.palette)
    (hok : promote v out s₁ s₂ = (.ok (), w')) : Delivered w w' out a b := by
  obtain ⟨u, previous, l, hplaced, x, hpersist, rfl⟩ := exists_placed h hd hok
  obtain ⟨lq, hq, hdir, rfl⟩ := hplaced.exists_of_persist hpersist
  have hllq : l ≠ lq := fun heq => hne l hplaced.slot (heq ▸ hq)
  have hbut : ∀ y ∈ [l, lq], w.tree.Impassable y := by
    simpa using ⟨himage.impassable hplaced.slot hplaced.not_dir, hpalette.impassable hq hdir⟩
  have hget := hplaced.get?_settled_of_impassable hq hllq hbut
  -- The paths lead to the same places as before.
  have halike : Alike w (previous.elim (u.moved l₂ lq (.file b))
      (u.moved l₂ lq (.file b)).drop) [l, lq] := by
    refine ⟨?_, fun m _ => ?_⟩
    · cases previous with
      | none => exact hplaced.alike_moved_palette.current
      | some t => simpa using hplaced.alike_moved_palette.current
    · rw [hget]
      by_cases hm : m = l ∨ m = lq
      · exact .inr (by simpa using hm)
      · obtain ⟨hml, hmq⟩ := not_or.1 hm
        simp [hml, hmq]
  refine ⟨⟨l, lq, hplaced.slot, hq, hllq, hget⟩, ?_, ?_⟩
  · exact read_of_slot (halike.slot hbut hplaced.slot) (by simp [hget])
  · exact read_of_slot (halike.slot hbut hq) (by simp [hget, hllq.symm])

/-- A commit that succeeds delivers both files, where neither path names a link and they do not
name the same entry. -/
theorem commit_delivered {image palette : List UInt8}
    (hne : ∀ l, w.slot out.image = .ok l → w.slot out.palette ≠ .ok l)
    (himage : w.NamesNoLink out.image) (hpalette : w.NamesNoLink out.palette)
    (hok : commit w out image palette = (.ok (), w')) : Delivered w w' out image palette := by
  rcases commit_cases w out image palette with ⟨hfail, -⟩ | ⟨v, s₁, s₂, l₁, l₂, d, hd, h, hcommit⟩
  · exact absurd (by rw [hok]) hfail
  · exact promote_delivered h hd hne himage hpalette (hcommit ▸ hok)

/-- A commit that fails changes nothing, where the image path names no link. -/
theorem commit_unchanged {image palette : List UInt8} {e : ConvertError}
    (himage : w.NamesNoLink out.image) (herr : commit w out image palette = (.error e, w')) :
    ∀ m, w'.tree.get? m = w.tree.get? m := by
  rcases commit_cases w out image palette with ⟨-, hsame⟩ | ⟨v, s₁, s₂, l₁, l₂, d, hd, h, hcommit⟩
  · simpa [herr] using hsame
  · refine (promote_error_iff h hd (hcommit ▸ herr)).2 ?_
    rintro ⟨⟨l, target, hslot, hl⟩, -⟩
    exact himage l target hslot hl

/-! ## Everything else stays -/

theorem Placed.get?_restored (h : Placed w u p s₂ none l l₂ a b) {m : Location}
    (hm : Spelled w.names m) (hml : m ≠ l) :
    ((Output.restore u p none).drop s₂).tree.get? m = w.tree.get? m := by
  have hm₂ : m ≠ l₂ := fun heq => h.spare.not_spelled (heq ▸ hm)
  have hu : u.tree.get? m = w.tree.get? m := h.others m hml hm₂ (by simp)
  -- Whether or not the image is removed, its place is no way to anywhere.
  have hdrop : ∀ y, Alike w y [l] → (∀ x ∈ [l], y.tree.Impassable x) →
      y.tree.get? m = w.tree.get? m → (y.drop s₂).tree.get? m = w.tree.get? m := by
    intro y halike hbut hy
    rw [get?_drop_of_ne fun x hx hmx => hm₂ ?_, hy]
    have hback := halike.locate_back hbut hx
    have hx₂ : l₂ = x := by simpa [h.spare.locate] using hback
    rw [hmx, hx₂]
  rw [Output.restore]
  split
  · rename_i y hremove
    obtain ⟨x, hslot, rfl⟩ := exists_of_remove hremove
    have hx : x = l := by
      have hback := h.alike.slot_back h.impassable hslot
      simpa [h.slot] using hback.symm
    subst hx
    refine hdrop _ (h.alike.erase (.inl (by simp))) ?_ ?_
    · have hgone : (u.tree.erase x).get? x = none := by
        simp [FileTree.get?_erase, ne_nil_of_slot h.slot]
      simpa [withTree] using FileTree.impassable_of_none hgone
    · simpa [withTree, FileTree.get?_erase, hml] using hu
  · exact hdrop u h.alike h.impassable hu

/-- The entries that a commit may replace: those that its paths name, but no directory. -/
def replaceable (w : Workspace) (out : OutputPair) : List Location :=
  ([out.image, out.palette].filterMap fun p => (w.slot p).toOption).filter fun l =>
    w.tree.get? l ≠ some .dir

theorem mem_replaceable : l ∈ replaceable w out ↔
    (∃ p ∈ [out.image, out.palette], w.slot p = .ok l) ∧ w.tree.get? l ≠ some .dir := by
  have hok : ∀ x : Except FileError Location, x.toOption = some l ↔ x = .ok l := by
    intro x
    cases x with
    | error e => simp [Except.toOption]
    | ok m => simp [Except.toOption]
  simp only [replaceable, List.mem_filter, List.mem_filterMap, hok, decide_eq_true_eq]

/-- A commit changes no other entries, as far as paths can lead. -/
theorem commit_frame {m : Location} (image palette : List UInt8) (hm : Spelled w.names m)
    (hnot : m ∉ replaceable w out) :
    (commit w out image palette).2.tree.get? m = w.tree.get? m := by
  have hne : ∀ p ∈ [out.image, out.palette], ∀ l, w.slot p = .ok l →
      w.tree.get? l ≠ some .dir → m ≠ l := by
    rintro p hp l hslot hdir rfl
    exact hnot (mem_replaceable.2 ⟨⟨p, hp, hslot⟩, hdir⟩)
  rcases commit_cases w out image palette with ⟨-, hsame⟩ | ⟨v, s₁, s₂, l₁, l₂, d, hd, h, hcommit⟩
  · exact hsame m
  · obtain ⟨result, w', hpromote⟩ : ∃ r w', promote v out s₁ s₂ = (r, w') := ⟨_, _, rfl⟩
    rw [hcommit, hpromote]
    cases result with
    | ok _ =>
        obtain ⟨u, previous, l, hplaced, x, hpersist, rfl⟩ := exists_placed h hd hpromote
        obtain ⟨lq, hq, hdir, rfl⟩ := hplaced.exists_of_persist hpersist
        exact hplaced.get?_settled_of_spelled hq hm
          (hne _ (by simp) l hplaced.slot hplaced.not_dir) (hne _ (by simp) lq hq hdir)
    | error e =>
        by_cases hlink : (∃ l target, w.slot out.image = .ok l ∧
            w.tree.get? l = some (.link target)) ∧ w.isFile out.image = false
        · obtain ⟨⟨l, target, hslot, hl⟩, hfile⟩ := hlink
          have hdir : w.tree.get? l ≠ some .dir := by simp [hl]
          rw [promote_of_not_isFile h hslot hdir hfile hpromote]
          exact (placed_of_not_isFile h hslot hdir).get?_restored hm (hne _ (by simp) l hslot hdir)
        · exact (promote_error_iff h hd hpromote).2 hlink m

/-! ### The current directory -/

theorem current_of_stage {t : Temporary} (h : w.stage p a = .ok (v, t)) :
    v.current = w.current := by
  rw [stage] at h
  split at h
  · cases h
  · cases h
    rfl

theorem current_of_persist {t : Temporary} (h : w.persist t p = .ok v) :
    v.current = w.current := by
  obtain ⟨m, l, e, -, -, -, -, rfl⟩ := Workspace.exists_of_persist h
  rfl

theorem current_of_setAside {previous : Option Temporary}
    (h : Output.setAside w p = .ok (v, previous)) : v.current = w.current := by
  rw [Output.setAside] at h
  split at h
  · split at h
    · cases h
    · rename_i u t hstage
      split at h
      · cases h
      · cases h
      · split at h
        · cases h
        · have hmade : u.current = w.current := current_of_stage hstage
          cases h
          exact hmade
  · cases h
    rfl

theorem current_restore (w : Workspace) (p : Path) (previous : Option Temporary) :
    (Output.restore w p previous).current = w.current := by
  rw [Output.restore.eq_def]
  split
  · split
    · rename_i hpersist
      exact current_of_persist hpersist
    · exact current_drop _ _
  · split
    · rename_i hremove
      obtain ⟨l, -, rfl⟩ := exists_of_remove hremove
      rfl
    · rfl

theorem current_promote (w : Workspace) (out : OutputPair) (s₁ s₂ : Temporary) :
    (promote w out s₁ s₂).2.current = w.current := by
  rw [promote]
  split
  · simp
  · rename_i hset
    split
    · simp [current_restore, current_of_setAside hset]
    · rename_i hfirst
      have hplaced := (current_of_persist hfirst).trans (current_of_setAside hset)
      split
      · simp [current_restore, hplaced]
      · rename_i hsecond
        have hboth := (current_of_persist hsecond).trans hplaced
        split
        · simp [hboth]
        · simp [hboth]

theorem current_commit (w : Workspace) (out : OutputPair) (image palette : List UInt8) :
    (commit w out image palette).2.current = w.current := by
  rw [commit]
  split
  · rfl
  · rename_i hfirst
    split
    · simp [current_of_stage hfirst]
    · rename_i hsecond
      rw [current_promote, current_of_stage hsecond, current_of_stage hfirst]

theorem commit_alike (w : Workspace) (out : OutputPair) (image palette : List UInt8) :
    Alike w (commit w out image palette).2 (replaceable w out) where
  current := current_commit w out image palette
  get? := by
    intro m hm
    by_cases hmem : m ∈ replaceable w out
    · exact .inr hmem
    · exact .inl (commit_frame image palette hm hmem)

end OutputPair

end PaletteBitmap

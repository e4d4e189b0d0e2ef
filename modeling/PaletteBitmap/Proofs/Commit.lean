import Mathlib
import PaletteBitmap.Conversion.Output
import PaletteBitmap.Proofs.Staging

/-!
# What a failed commit leaves behind

A commit that fails puts everything back, with one exception.  A link at the image path that
leads to no file is not set aside: the image takes its place, and when the palette then cannot
be moved, the image is removed but the link does not come back.

The proof follows a commit through its states.  Both files are staged first (`Staged`), which
no path shows; then there is one case for each thing that can stand at the image path.
-/

namespace PaletteBitmap

namespace Workspace

variable {w v : Workspace} {p : Path} {t s₁ s₂ : Temporary} {l m d l₁ l₂ : Location}
  {n : String} {e : Entry} {data : List UInt8}

/-! ## Where temporary files stand -/

/-- A location that a temporary file is looked for at, where nothing stands. -/
structure Spare (w : Workspace) (t : Temporary) (l : Location) : Prop where
  locate : w.locate t = .ok l
  not_spelled : ¬ Spelled w.names l
  empty : w.tree.get? l = none

theorem Hidden.spare (hn : w.Hidden n) (hd : w.directory p = .ok d) :
    w.Spare ⟨p, n⟩ (d ++ [n]) where
  locate := by simp [Workspace.locate, hd]
  not_spelled := hn.not_spelled (by simp)
  empty := hn.get?_eq_none

theorem Spare.ne_nil (h : w.Spare t l) : l ≠ [] := by
  intro hl
  have hroot := h.empty
  simp [hl, FileTree.get?] at hroot

theorem ne_nil_of_slot (h : w.slot p = .ok l) : l ≠ [] := by
  obtain ⟨d, n, _, _, _, rfl⟩ := slot_eq_ok_iff.1 h
  simp

theorem Spare.ne_slot (h : w.Spare t m) (hl : w.slot p = .ok l) : l ≠ m := by
  intro hlm
  exact h.not_spelled (hlm ▸ spelled_of_slot hl)

theorem Alike.locate {but : List Location} (h : Alike w v but)
    (hbut : ∀ x ∈ but, w.tree.Impassable x) (hl : w.locate t = .ok l) : v.locate t = .ok l := by
  rw [Workspace.locate] at hl ⊢
  split at hl
  · cases hl
  · rename_i d hd
    rw [h.directory hbut hd]
    exact hl

theorem stage_eq_ok (hd : w.directory p = .ok d) : w.stage p data =
    .ok (w.withTree (w.tree.put (d ++ [w.freshName]) (.file data)), ⟨p, w.freshName⟩) := by
  simp [stage, hd]

theorem drop_eq (h : v.locate t = .ok l) : v.drop t = v.withTree (v.tree.erase l) := by
  simp [drop, h, discard]

theorem get?_put_of_ne_nil {t : FileTree} (hl : l ≠ []) (m : Location) :
    (t.put l e).get? m = if m = l then some e else t.get? m := by
  by_cases hm : m = l
  · simp [FileTree.get?_put, hm, hl]
  · simp [FileTree.get?_put, hm]

/-- The entry `x` has moved from `m` to `l`. -/
def moved (v : Workspace) (m l : Location) (x : Entry) : Workspace :=
  v.withTree ((v.tree.erase m).put l x)

theorem get?_moved (hl : l ≠ []) (hm : m ≠ []) (k : Location) :
    (v.moved m l e).tree.get? k =
      if k = l then some e else if k = m then none else v.tree.get? k := by
  by_cases hkl : k = l
  · simp [moved, withTree, FileTree.get?_put, hkl, hl]
  · by_cases hkm : k = m
    · simp [moved, withTree, FileTree.get?_put, FileTree.get?_erase, hkm, hm]
    · simp [moved, withTree, FileTree.get?_put, FileTree.get?_erase, hkl, hkm]

theorem Alike.moved {but : List Location} (h : Alike w v but)
    (hm : m ∈ but ∨ ¬ Spelled w.names m) (hl : l ∈ but ∨ ¬ Spelled w.names l) :
    Alike w (v.moved m l e) but := by
  have herased : Alike w (v.withTree (v.tree.erase m)) but := h.erase hm
  exact herased.put hl

theorem persist_eq_ok (ht : v.locate t = .ok m) (hp : v.slot p = .ok l)
    (he : v.tree.get? m = some e) (hl : v.tree.get? l ≠ some .dir) :
    v.persist t p = .ok (v.moved m l e) := by
  simp [persist, moveTo, ht, hp, he, hl, moved]

theorem remove_eq_ok (hp : v.slot p = .ok l) (he : v.tree.get? l = some e) (hne : e ≠ .dir) :
    v.remove p = .ok (v.withTree (v.tree.erase l)) := by
  cases e with
  | dir => exact absurd rfl hne
  | file data => simp [remove, hp, he, discard]
  | link target => simp [remove, hp, he, discard]

theorem exists_slot_error (h : ∀ l, w.slot p ≠ .ok l) : ∃ x, w.slot p = .error x := by
  cases hslot : w.slot p with
  | error x => exact ⟨x, rfl⟩
  | ok l => exact absurd hslot (h l)

theorem get?_remove {u : Workspace} (h : v.remove p = .ok u) (m : Location) :
    u.tree.get? m = v.tree.get? m ∨ u.tree.get? m = none := by
  rw [remove] at h
  split at h
  · cases h
  · split at h
    · cases h
    · cases h
    · cases h
      simp only [discard, withTree, FileTree.get?_erase]
      split
      · exact .inr rfl
      · exact .inl rfl

theorem get?_drop (v : Workspace) (t : Temporary) (m : Location) :
    (v.drop t).tree.get? m = v.tree.get? m ∨ (v.drop t).tree.get? m = none := by
  rw [drop]
  split
  · exact .inl rfl
  · simp only [discard, withTree, FileTree.get?_erase]
    split
    · exact .inr rfl
    · exact .inl rfl

/-! ## Two staged files -/

/-- In `v` two temporary files stand that are not in `w`. -/
structure Staged (w v : Workspace) (s₁ s₂ : Temporary) (l₁ l₂ : Location)
    (a b : List UInt8) : Prop where
  spare₁ : w.Spare s₁ l₁
  spare₂ : w.Spare s₂ l₂
  ne : l₁ ≠ l₂
  current : v.current = w.current
  names : ∀ n ∈ w.names, n ∈ v.names
  get? : ∀ l, v.tree.get? l =
    if l = l₁ then some (.file a) else if l = l₂ then some (.file b)
    else w.tree.get? l

variable {a b : List UInt8}

namespace Staged

theorem symm (h : Staged w v s₁ s₂ l₁ l₂ a b) :
    Staged w v s₂ s₁ l₂ l₁ b a where
  spare₁ := h.spare₂
  spare₂ := h.spare₁
  ne := h.ne.symm
  current := h.current
  names := h.names
  get? := by
    intro l
    rw [h.get? l]
    by_cases hl : l = l₁
    · simp [hl, h.ne]
    · simp [hl]

theorem alike (h : Staged w v s₁ s₂ l₁ l₂ a b) : Alike w v [] where
  current := h.current
  get? := by
    intro l hl
    have hl₁ : l ≠ l₁ := fun heq => h.spare₁.not_spelled (heq ▸ hl)
    have hl₂ : l ≠ l₂ := fun heq => h.spare₂.not_spelled (heq ▸ hl)
    simp [h.get? l, hl₁, hl₂]

theorem get?_staged (h : Staged w v s₁ s₂ l₁ l₂ a b) :
    v.tree.get? l₁ = some (.file a) := by simp [h.get?]

theorem locate (h : Staged w v s₁ s₂ l₁ l₂ a b) : v.locate s₁ = .ok l₁ :=
  h.alike.locate (by simp) h.spare₁.locate

theorem get?_slot (h : Staged w v s₁ s₂ l₁ l₂ a b) (hl : w.slot p = .ok l) :
    v.tree.get? l = w.tree.get? l := by
  simp [h.get?, h.spare₁.ne_slot hl, h.spare₂.ne_slot hl]

theorem drop_drop (h : Staged w v s₁ s₂ l₁ l₂ a b) :
    ∀ l, ((v.drop s₁).drop s₂).tree.get? l = w.tree.get? l := by
  intro l
  have hfirst : v.drop s₁ = v.withTree (v.tree.erase l₁) :=
    drop_eq h.locate
  have halike : Alike w (v.drop s₁) [] := by
    rw [hfirst]
    exact h.alike.erase (.inr h.spare₁.not_spelled)
  rw [drop_eq (halike.locate (by simp) h.spare₂.locate), hfirst]
  by_cases hl₁ : l = l₁
  · simp [withTree, FileTree.get?_erase, hl₁, h.ne, h.spare₁.ne_nil, h.spare₁.empty]
  · by_cases hl₂ : l = l₂
    · simp [withTree, FileTree.get?_erase, hl₂, h.spare₂.ne_nil, h.spare₂.empty]
    · simp [withTree, FileTree.get?_erase, hl₁, hl₂, h.get? l]

end Staged

end Workspace

namespace OutputPair

open Workspace

variable {w v w' : Workspace} {out : OutputPair} {s₁ s₂ : Temporary} {l l₁ l₂ : Location}
  {a b image palette : List UInt8} {e : ConvertError}

/-! ## Promoting, by what stands at the image path -/

/-- Nothing has happened yet when the image cannot be moved. -/
theorem promote_blocked (h : Staged w v s₁ s₂ l₁ l₂ a b) {x y : FileError}
    (hfile : v.isFile out.image = false) (hpersist : v.persist s₁ out.image = .error x)
    (hremove : v.remove out.image = .error y) :
    ∀ l, (promote v out s₁ s₂).2.tree.get? l = w.tree.get? l := by
  have hstate : (promote v out s₁ s₂).2 = (v.drop s₁).drop s₂ := by
    simp [promote, Output.setAside, Output.restore, hfile, hpersist, hremove]
  rw [hstate]
  exact h.drop_drop

theorem promote_of_dir (h : Staged w v s₁ s₂ l₁ l₂ a b) (hslot : w.slot out.image = .ok l)
    (hl : w.tree.get? l = some .dir) :
    ∀ m, (promote v out s₁ s₂).2.tree.get? m = w.tree.get? m := by
  have hfile : w.isFile out.image = false := isFile_eq_false hslot (.inr hl)
  have hslot' : v.slot out.image = .ok l := h.alike.slot (by simp) hslot
  have hl' : v.tree.get? l = some .dir := (h.get?_slot hslot).trans hl
  refine promote_blocked h (x := .isADirectory) (y := .isADirectory) ?_ ?_ ?_
  · rw [h.alike.isFile_eq, hfile]
  · simp [persist, moveTo, h.locate, hslot', h.get?_staged, hl']
  · simp [remove, hslot', hl']

theorem setAside_error (hslot : ∀ l, v.slot out.image ≠ .ok l)
    (hfile : v.isFile out.image = true) : ∃ x, Output.setAside v out.image = .error x := by
  rw [Output.setAside, if_pos hfile]
  cases hd : v.directory out.image with
  | error x => exact ⟨x, by simp [stage, hd]⟩
  | ok d =>
      -- The file made to set the image aside does not give its path a place either.
      have hslot' : ∀ l, (v.withTree (v.tree.put (d ++ [v.freshName]) (.file []))).slot
          out.image ≠ .ok l := by
        intro l hl
        have hspare := (hidden_freshName v).spare hd
        have halike : Alike v (v.withTree (v.tree.put (d ++ [v.freshName]) (.file []))) [] :=
          (Alike.refl v).put (.inr hspare.not_spelled)
        exact hslot l (halike.slot_back (by simp) hl)
      obtain ⟨x, hx⟩ := exists_slot_error hslot'
      exact ⟨x, by simp [stage, hd, hx]⟩

theorem promote_of_no_slot (h : Staged w v s₁ s₂ l₁ l₂ a b)
    (hslot : ∀ l, w.slot out.image ≠ .ok l) :
    ∀ m, (promote v out s₁ s₂).2.tree.get? m = w.tree.get? m := by
  have hslot' : ∀ l, v.slot out.image ≠ .ok l :=
    fun l hl => hslot l (h.alike.slot_back (by simp) hl)
  cases hfile : v.isFile out.image with
  | true =>
      obtain ⟨x, hx⟩ := setAside_error hslot' hfile
      have hstate : (promote v out s₁ s₂).2 = (v.drop s₂).drop s₁ := by
        simp [promote, hx]
      rw [hstate]
      exact h.symm.drop_drop
  | false =>
      obtain ⟨x, hx⟩ := exists_slot_error hslot'
      refine promote_blocked h (x := x) (y := x) hfile ?_ ?_
      · simp [persist, moveTo, h.locate, hx]
      · simp [remove, hx]

/-- Where no file is set aside, the image moves before anything can fail. -/
theorem promote_of_not_isFile (h : Staged w v s₁ s₂ l₁ l₂ a b)
    (hslot : w.slot out.image = .ok l) (hl : w.tree.get? l ≠ some .dir)
    (hfile : w.isFile out.image = false) (herr : promote v out s₁ s₂ = (.error e, w')) :
    w' = (Output.restore (v.moved l₁ l (.file a)) out.image none).drop s₂ := by
  have hpersist : v.persist s₁ out.image = .ok (v.moved l₁ l (.file a)) := by
    refine persist_eq_ok h.locate (h.alike.slot (by simp) hslot) h.get?_staged ?_
    rwa [h.get?_slot hslot]
  have haside : Output.setAside v out.image = .ok (v, none) := by
    simp [Output.setAside, h.alike.isFile_eq, hfile]
  simp only [promote, haside, hpersist] at herr
  split at herr
  · cases herr
    rfl
  · cases herr

/-- An image that stands where nothing stood before is taken back. -/
theorem promote_of_none (h : Staged w v s₁ s₂ l₁ l₂ a b) (hslot : w.slot out.image = .ok l)
    (hl : w.tree.get? l = none) (herr : promote v out s₁ s₂ = (.error e, w')) :
    ∀ m, w'.tree.get? m = w.tree.get? m := by
  have hfile : w.isFile out.image = false := isFile_eq_false hslot (.inl hl)
  have hbut : ∀ x ∈ [l], w.tree.Impassable x := by
    simpa using FileTree.impassable_of_none hl
  have hget := get?_moved (v := v) (e := .file a) (ne_nil_of_slot hslot) h.spare₁.ne_nil
  have hmoved : Alike w (v.moved l₁ l (.file a)) [l] :=
    (h.alike.mono (by simp)).moved (.inr h.spare₁.not_spelled) (.inl (by simp))
  have hremove : (v.moved l₁ l (.file a)).remove out.image =
      .ok ((v.moved l₁ l (.file a)).withTree ((v.moved l₁ l (.file a)).tree.erase l)) :=
    remove_eq_ok (hmoved.slot hbut hslot) (e := .file a) (by simp [hget]) (by simp)
  have hlocate := (hmoved.erase (l := l) (.inl (by simp))).locate hbut h.spare₂.locate
  intro m
  rw [promote_of_not_isFile h hslot (by simp [hl]) hfile herr, Output.restore, hremove]
  simp only
  rw [drop_eq hlocate]
  -- Nothing stood at the place of the image, nor where the two files were staged.
  by_cases hm₂ : m = l₂
  · simp [withTree, FileTree.get?_erase, hm₂, h.spare₂.ne_nil, h.spare₂.empty]
  by_cases hm : m = l
  · simp [withTree, FileTree.get?_erase, hm, ne_nil_of_slot hslot, hl]
  by_cases hm₁ : m = l₁
  · simp [withTree, FileTree.get?_erase, hget, hm₁, h.ne, (h.spare₁.ne_slot hslot).symm,
      h.spare₁.empty]
  · simp [withTree, FileTree.get?_erase, hget, hm, hm₁, hm₂, h.get?]

/-- A link that is not set aside never comes back. -/
theorem promote_of_link {target : Path} (h : Staged w v s₁ s₂ l₁ l₂ a b)
    (hslot : w.slot out.image = .ok l) (hl : w.tree.get? l = some (.link target))
    (hfile : w.isFile out.image = false) (herr : promote v out s₁ s₂ = (.error e, w')) :
    w'.tree.get? l ≠ w.tree.get? l := by
  rw [promote_of_not_isFile h hslot (by simp [hl]) hfile herr, hl]
  have hplaced : (v.moved l₁ l (.file a)).tree.get? l = some (.file a) := by
    simp [get?_moved (ne_nil_of_slot hslot) h.spare₁.ne_nil]
  -- The image stands in its place until it is removed, if it is.
  have hrestored : ∀ u, u = Output.restore (v.moved l₁ l (.file a)) out.image none →
      u.tree.get? l = some (.file a) ∨ u.tree.get? l = none := by
    intro u hu
    rw [Output.restore] at hu
    split at hu
    · rename_i u' hremove
      rcases get?_remove hremove l with hkeep | hgone
      · exact .inl (hu ▸ hkeep.trans hplaced)
      · exact .inr (hu ▸ hgone)
    · exact .inl (hu ▸ hplaced)
  rcases get?_drop (Output.restore (v.moved l₁ l (.file a)) out.image none) s₂ l with
    hkeep | hgone
  · rcases hrestored _ rfl with hfile | hnone
    · simp [hkeep, hfile]
    · simp [hkeep, hnone]
  · simp [hgone]

/-! ### A file at the image path -/

/-- In `u` the entry `x` of the image path waits beside its place, next to both staged files. -/
structure Aside (w u : Workspace) (p : Path) (s₁ s₂ t : Temporary) (l₁ l₂ l₃ l : Location)
    (a b : List UInt8) (x : Entry) : Prop where
  slot : w.slot p = .ok l
  entry : w.tree.get? l = some x
  impassable : w.tree.Impassable l
  spare₁ : w.Spare s₁ l₁
  spare₂ : w.Spare s₂ l₂
  spare₃ : w.Spare t l₃
  ne₁₂ : l₁ ≠ l₂
  ne₁₃ : l₁ ≠ l₃
  ne₂₃ : l₂ ≠ l₃
  alike : Alike w u [l]
  get? : ∀ m, u.tree.get? m =
    if m = l₃ then some x else if m = l then none else if m = l₁ then some (.file a)
    else if m = l₂ then some (.file b) else w.tree.get? m

theorem setAside_of_isFile {d : Location} (h : Staged w v s₁ s₂ l₁ l₂ a b)
    (hslot : w.slot out.image = .ok l) (hfile : w.isFile out.image = true)
    (hd : w.directory out.image = .ok d) :
    ∃ u t l₃ x, Output.setAside v out.image = .ok (u, some t) ∧
      Aside w u out.image s₁ s₂ t l₁ l₂ l₃ l a b x := by
  obtain ⟨x, hx⟩ := exists_entry_of_isFile hslot hfile
  have hd' : v.directory out.image = .ok d := h.alike.directory (by simp) hd
  have hslot' : v.slot out.image = .ok l := h.alike.slot (by simp) hslot
  -- The name of the new file is hidden in `v`, which has more names than `w`.
  have hspare' := (hidden_freshName v).spare hd'
  have hhidden : w.Hidden v.freshName :=
    ⟨(hidden_freshName v).slash, fun hn => (hidden_freshName v).notMem (h.names _ hn)⟩
  obtain ⟨l₃, hl₃⟩ : ∃ l₃, l₃ = d ++ [v.freshName] := ⟨_, rfl⟩
  rw [← hl₃] at hspare'
  have hspare : w.Spare ⟨out.image, v.freshName⟩ l₃ := hl₃ ▸ hhidden.spare hd
  have hmade : Alike v (v.withTree (v.tree.put l₃ (.file []))) [] :=
    (Alike.refl v).put (.inr hspare'.not_spelled)
  have hget : (v.tree.put l₃ (.file [])).get? l = some x := by
    rw [FileTree.get?_put, if_neg fun hand => hspare'.ne_slot hslot' hand.1, h.get?_slot hslot, hx]
  refine ⟨(v.withTree (v.tree.put l₃ (.file []))).moved l l₃ x, ⟨out.image, v.freshName⟩, l₃, x,
    ?_, ?_⟩
  · simp only [Output.setAside, h.alike.isFile_eq, hfile, stage_eq_ok hd', ← hl₃,
      hmade.slot (by simp) hslot', hmade.locate (by simp) hspare'.locate]
    simp [withTree, hget, moved]
  · refine ⟨hslot, hx, impassable_of_isFile hslot hfile, h.spare₁, h.spare₂, hspare, h.ne,
      ?_, ?_, ?_, ?_⟩
    · intro heq
      simpa [← heq, h.get?_staged] using hspare'.empty
    · intro heq
      simpa [← heq, h.symm.get?_staged] using hspare'.empty
    · exact ((h.alike.mono (by simp)).put (.inr hspare.not_spelled)).moved (.inl (by simp))
        (.inr hspare.not_spelled)
    · intro m
      rw [get?_moved hspare.ne_nil (ne_nil_of_slot hslot)]
      by_cases hm : m = l₃
      · simp [hm]
      · simp [hm, withTree, FileTree.get?_put, h.get?]

/-- The image takes the place that the entry has left. -/
theorem Aside.persist_image {u : Workspace} {p : Path} {t : Temporary} {l₃ : Location}
    {x : Entry} (h : Aside w u p s₁ s₂ t l₁ l₂ l₃ l a b x) :
    u.persist s₁ p = .ok (u.moved l₁ l (.file a)) := by
  have hbut : ∀ y ∈ [l], w.tree.Impassable y := by simpa using h.impassable
  refine persist_eq_ok (h.alike.locate hbut h.spare₁.locate) (h.alike.slot hbut h.slot) ?_ ?_
  · simp [h.get?, h.ne₁₃, (h.spare₁.ne_slot h.slot).symm]
  · simp [h.get?, h.spare₃.ne_slot h.slot]

/-- The image that took the place of an entry is replaced by it again. -/
theorem Aside.restore {u : Workspace} {p : Path} {t : Temporary} {l₃ : Location} {x : Entry}
    (h : Aside w u p s₁ s₂ t l₁ l₂ l₃ l a b x) :
    ∃ u', u.persist s₁ p = .ok u' ∧
      ∀ m, ((Output.restore u' p (some t)).drop s₂).tree.get? m = w.tree.get? m := by
  have hbut : ∀ y ∈ [l], w.tree.Impassable y := by simpa using h.impassable
  have hnil := ne_nil_of_slot h.slot
  have hne₃ := h.spare₃.ne_slot h.slot
  have hget := get?_moved (v := u) (e := .file a) hnil h.spare₁.ne_nil
  have hplaced : Alike w (u.moved l₁ l (.file a)) [l] :=
    h.alike.moved (.inr h.spare₁.not_spelled) (.inl (by simp))
  have hback : (u.moved l₁ l (.file a)).persist t p =
      .ok ((u.moved l₁ l (.file a)).moved l₃ l x) := by
    refine persist_eq_ok (hplaced.locate hbut h.spare₃.locate) (hplaced.slot hbut h.slot) ?_ ?_
    · simp [hget, h.get?, h.ne₁₃.symm, hne₃.symm]
    · simp [hget]
  have hrestored : Alike w ((u.moved l₁ l (.file a)).moved l₃ l x) [l] :=
    hplaced.moved (.inr h.spare₃.not_spelled) (.inl (by simp))
  refine ⟨u.moved l₁ l (.file a), h.persist_image, fun m => ?_⟩
  simp only [Output.restore, hback]
  rw [drop_eq (hrestored.locate hbut h.spare₂.locate)]
  simp only [withTree, FileTree.get?_erase, get?_moved hnil h.spare₃.ne_nil, hget, h.get?]
  -- The entry is back, and the three temporary files are gone.
  by_cases hm₂ : m = l₂
  · simp [hm₂, h.spare₂.ne_nil, h.spare₂.empty]
  by_cases hm : m = l
  · simp [hm, h.spare₂.ne_slot h.slot, h.entry]
  by_cases hm₃ : m = l₃
  · simp [hm₃, h.ne₂₃.symm, hne₃.symm, h.spare₃.empty]
  by_cases hm₁ : m = l₁
  · simp [hm₁, h.ne₁₂, h.ne₁₃, (h.spare₁.ne_slot h.slot).symm, h.spare₁.empty]
  · simp [hm, hm₁, hm₂, hm₃]

/-- A file, or a link to one, is moved back. -/
theorem promote_of_isFile {d : Location} (h : Staged w v s₁ s₂ l₁ l₂ a b)
    (hslot : w.slot out.image = .ok l) (hfile : w.isFile out.image = true)
    (hd : w.directory out.image = .ok d) (herr : promote v out s₁ s₂ = (.error e, w')) :
    ∀ m, w'.tree.get? m = w.tree.get? m := by
  obtain ⟨u, t, l₃, x, hset, haside⟩ := setAside_of_isFile h hslot hfile hd
  obtain ⟨u', hpersist, hsame⟩ := haside.restore
  simp only [promote, hset, hpersist] at herr
  split at herr
  · cases herr
    exact hsame
  · cases herr

/-! ## Commits -/

/-- Both files can be made, and the image takes the place of a link that leads to no file. -/
structure LosesLink (w : Workspace) (out : OutputPair) : Prop where
  image_dir : ∃ d, w.directory out.image = .ok d
  palette_dir : ∃ d, w.directory out.palette = .ok d
  link : ∃ l target, w.slot out.image = .ok l ∧ w.tree.get? l = some (.link target)
  not_file : w.isFile out.image = false

theorem promote_error_iff {d : Location} (h : Staged w v s₁ s₂ l₁ l₂ a b)
    (hd : w.directory out.image = .ok d) (herr : promote v out s₁ s₂ = (.error e, w')) :
    (∀ m, w'.tree.get? m = w.tree.get? m) ↔
      ¬ ((∃ l target, w.slot out.image = .ok l ∧ w.tree.get? l = some (.link target)) ∧
        w.isFile out.image = false) := by
  constructor
  · rintro hsame ⟨⟨l, target, hslot, hl⟩, hfile⟩
    exact promote_of_link h hslot hl hfile herr (hsame l)
  · intro hlink
    have hstate : w' = (promote v out s₁ s₂).2 := by rw [herr]
    -- One case for each thing that can stand at the image path.
    cases hslot : w.slot out.image with
    | error x =>
        rw [hstate]
        exact promote_of_no_slot h (by simp [hslot])
    | ok l =>
        cases hl : w.tree.get? l with
        | none => exact promote_of_none h hslot hl herr
        | some x =>
            cases x with
            | dir =>
                rw [hstate]
                exact promote_of_dir h hslot hl
            | file data => exact promote_of_isFile h hslot (isFile_of_slot hslot hl) hd herr
            | link target =>
                cases hfile : w.isFile out.image with
                | true => exact promote_of_isFile h hslot hfile hd herr
                | false => exact absurd ⟨⟨l, target, hslot, hl⟩, hfile⟩ hlink

/-- A file staged and removed again leaves nothing. -/
theorem get?_drop_stage {d : Location} {p : Path} (hd : w.directory p = .ok d) (m : Location) :
    ((w.withTree (w.tree.put (d ++ [w.freshName]) (.file a))).drop ⟨p, w.freshName⟩).tree.get? m =
      w.tree.get? m := by
  have hspare := (hidden_freshName w).spare hd
  have halike : Alike w (w.withTree (w.tree.put (d ++ [w.freshName]) (.file a))) [] :=
    (Alike.refl w).put (.inr hspare.not_spelled)
  rw [drop_eq (halike.locate (by simp) hspare.locate)]
  by_cases hm : m = d ++ [w.freshName]
  · simp [withTree, FileTree.get?_erase, hm, hspare.empty]
  · simp [withTree, FileTree.get?_erase, FileTree.get?_put, hm]

/-- Once both directories are found, both files are staged. -/
theorem exists_staged (image palette : List UInt8) {d₁ d₂ : Location}
    (h₁ : w.directory out.image = .ok d₁)
    (h₂ : w.directory out.palette = .ok d₂) :
    ∃ v s₁ s₂ l₁ l₂, Staged w v s₁ s₂ l₁ l₂ image palette ∧
      commit w out image palette = promote v out s₁ s₂ := by
  have hspare₁ := (hidden_freshName w).spare h₁
  obtain ⟨u, hu⟩ : ∃ u, u = w.withTree (w.tree.put (d₁ ++ [w.freshName]) (.file image)) :=
    ⟨_, rfl⟩
  have halike : Alike w u [] := hu ▸ (Alike.refl w).put (.inr hspare₁.not_spelled)
  have h₂' : u.directory out.palette = .ok d₂ := halike.directory (by simp) h₂
  -- The second name is hidden from the first file, too.
  have hhidden : (w.withTree (w.tree.put (d₁ ++ [w.freshName]) (.file image))).Hidden u.freshName :=
    hu ▸ hidden_freshName u
  have hspare₂ := hhidden.of_put.1.spare h₂
  have hne : d₁ ++ [w.freshName] ≠ d₂ ++ [u.freshName] := by
    intro heq
    have hname : w.freshName = u.freshName := by
      simpa using congrArg List.getLast? heq
    exact hhidden.of_put.2 (by simp [hname])
  refine ⟨u.withTree (u.tree.put (d₂ ++ [u.freshName]) (.file palette)),
    ⟨out.image, w.freshName⟩, ⟨out.palette, u.freshName⟩, _, _,
    ⟨hspare₁, hspare₂, hne, ?_, ?_, ?_⟩, ?_⟩
  · simp [hu, withTree]
  · intro n hn
    exact mem_names_put (.inl (hu ▸ mem_names_put (.inl hn)))
  · intro m
    have hfirst : u.tree.get? m =
        if m = d₁ ++ [w.freshName] then some (.file image) else w.tree.get? m := by
      rw [hu]
      exact get?_put_of_ne_nil hspare₁.ne_nil m
    have hboth := get?_put_of_ne_nil (t := u.tree) (e := .file palette) hspare₂.ne_nil m
    by_cases hm : m = d₁ ++ [w.freshName]
    · rw [withTree, hboth, hfirst, if_pos hm, if_neg (hm ▸ hne), if_pos hm]
    · rw [withTree, hboth, hfirst, if_neg hm, if_neg hm]
  · simp [commit, stage_eq_ok h₁, ← hu, stage_eq_ok h₂']

theorem commit_of_no_image_dir (hd : ∀ d, w.directory out.image ≠ .ok d) :
    (commit w out image palette).2 = w := by
  cases hdir : w.directory out.image with
  | ok d => exact absurd hdir (hd d)
  | error x => simp [commit, stage, hdir]

theorem commit_of_no_palette_dir {d : Location} (h₁ : w.directory out.image = .ok d)
    (h₂ : ∀ d, w.directory out.palette ≠ .ok d) (m : Location) :
    (commit w out image palette).2.tree.get? m = w.tree.get? m := by
  have hspare := (hidden_freshName w).spare h₁
  have halike : Alike w (w.withTree (w.tree.put (d ++ [w.freshName]) (.file image))) [] :=
    (Alike.refl w).put (.inr hspare.not_spelled)
  cases hdir : (w.withTree (w.tree.put (d ++ [w.freshName]) (.file image))).directory
      out.palette with
  | ok d' => exact absurd (halike.directory_back (by simp) hdir) (h₂ d')
  | error x =>
      have hstate : (commit w out image palette).2 =
          (w.withTree (w.tree.put (d ++ [w.freshName]) (.file image))).drop
            ⟨out.image, w.freshName⟩ := by
        have hstage : (w.withTree (w.tree.put (d ++ [w.freshName]) (.file image))).stage
            out.palette palette = .error x := by
          simp [stage, hdir]
        simp [commit, stage_eq_ok h₁, hstage]
      rw [hstate]
      exact get?_drop_stage h₁ m

/-- A failed commit leaves every location as it was, temporary files included, unless it takes
the place of a link that leads to no file. -/
theorem commit_error_unchanged_iff (w w' : Workspace) (out : OutputPair)
    (image palette : List UInt8) (e : ConvertError)
    (herr : commit w out image palette = (.error e, w')) :
    (∀ l, w'.tree.get? l = w.tree.get? l) ↔ ¬ LosesLink w out := by
  have hstate : w' = (commit w out image palette).2 := by rw [herr]
  by_cases h₁ : ∃ d, w.directory out.image = .ok d
  · by_cases h₂ : ∃ d, w.directory out.palette = .ok d
    · obtain ⟨d₁, hd₁⟩ := h₁
      obtain ⟨d₂, hd₂⟩ := h₂
      obtain ⟨v, s₁, s₂, l₁, l₂, hstaged, hcommit⟩ :=
        exists_staged image palette hd₁ hd₂
      rw [promote_error_iff hstaged hd₁ (hcommit ▸ herr)]
      exact not_congr ⟨fun h => ⟨⟨d₁, hd₁⟩, ⟨d₂, hd₂⟩, h.1, h.2⟩,
        fun h => ⟨h.link, h.not_file⟩⟩
    · have hsame : ∀ l, w'.tree.get? l = w.tree.get? l := by
        obtain ⟨d₁, hd₁⟩ := h₁
        intro l
        rw [hstate]
        exact commit_of_no_palette_dir hd₁ (fun d hd => h₂ ⟨d, hd⟩) l
      exact iff_of_true hsame fun h => h₂ h.palette_dir
  · have hsame : ∀ l, w'.tree.get? l = w.tree.get? l := by
      intro l
      rw [hstate, commit_of_no_image_dir fun d hd => h₁ ⟨d, hd⟩]
    exact iff_of_true hsame fun h => h₁ h.image_dir

/-- A directory stands where the palette should go. -/
def blocked (x : Entry) : Workspace := ⟨⟨[(["i"], x), (["p"], .dir)]⟩, []⟩

theorem blocked_file_unchanged :
    ∃ w', commit (blocked (.file [7])) ⟨⟨"i"⟩, ⟨"p"⟩⟩ [1] [2] =
        (.error (.io ⟨"p"⟩ .isADirectory), w') ∧
      ¬ LosesLink (blocked (.file [7])) ⟨⟨"i"⟩, ⟨"p"⟩⟩ ∧
      ∀ l, w'.tree.get? l = (blocked (.file [7])).tree.get? l := by
  have herr : (commit (blocked (.file [7])) ⟨⟨"i"⟩, ⟨"p"⟩⟩ [1] [2]).1 =
      .error (.io ⟨"p"⟩ .isADirectory) := by cbv
  have hfile : (blocked (.file [7])).isFile ⟨"i"⟩ = true := by cbv
  have hkeeps : ¬ LosesLink (blocked (.file [7])) ⟨⟨"i"⟩, ⟨"p"⟩⟩ := by
    intro h
    simpa [hfile] using h.not_file
  refine ⟨_, Prod.ext herr rfl, hkeeps, ?_⟩
  exact (commit_error_unchanged_iff _ _ _ _ _ _ (Prod.ext herr rfl)).2 hkeeps

/-- A link to nothing at the image path is gone after a failed commit. -/
theorem blocked_link_lost :
    (commit (blocked (.link ⟨"g"⟩)) ⟨⟨"i"⟩, ⟨"p"⟩⟩ [1] [2]).1 =
        .error (.io ⟨"p"⟩ .isADirectory) ∧
      (blocked (.link ⟨"g"⟩)).tree.get? ["i"] = some (.link ⟨"g"⟩) ∧
      (commit (blocked (.link ⟨"g"⟩)) ⟨⟨"i"⟩, ⟨"p"⟩⟩ [1] [2]).2.tree.get? ["i"] = none := by
  refine ⟨?_, ?_, ?_⟩
  · cbv
  · rfl
  · cbv

end OutputPair

end PaletteBitmap

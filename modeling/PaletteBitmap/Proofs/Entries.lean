import Mathlib
import PaletteBitmap.Conversion.Request
import PaletteBitmap.Proofs.Staging

/-!
# Paths that name one entry

The check of a request compares paths by their parts, where a `.` counts only in front, while a
file is moved to what a walk along all parts leads to.  Both readings agree on every path that a
file can be moved to (`place?_of_slot`), so a request that passes the check never names one entry
twice (`Endpoints.slot_ne_of_check`).
-/

namespace PaletteBitmap

/-! ## Walks without dots -/

/-- A walk that arrives also does so without the dots in its last parts. -/
theorem FileTree.Walks.drop_here {t : FileTree} {links : Nat} {l m : Location}
    {a b : List Part} (h : t.Walks links l (a ++ b) m) :
    t.Walks links l (a ++ b.filter (· ≠ .here)) m := by
  generalize hparts : a ++ b = parts at h
  induction h generalizing a b with
  | done =>
      obtain ⟨rfl, rfl⟩ := List.append_eq_nil_iff.1 hparts
      exact .done
  | here hl hrest ih =>
      rcases List.append_eq_cons_iff.1 hparts with ⟨rfl, rfl⟩ | ⟨a', rfl, rfl⟩
      · simpa using ih (a := []) rfl
      · exact .here hl (ih rfl)
  | up hl hrest ih =>
      rcases List.append_eq_cons_iff.1 hparts with ⟨rfl, rfl⟩ | ⟨a', rfl, rfl⟩
      · simpa using FileTree.Walks.up hl (ih (a := []) rfl)
      · exact .up hl (ih rfl)
  | new hl hn hnext =>
      rcases List.append_eq_cons_iff.1 hparts with ⟨rfl, rfl⟩ | ⟨a', rfl, hnil⟩
      · simpa using FileTree.Walks.new hl hn hnext
      · obtain ⟨rfl, rfl⟩ := List.append_eq_nil_iff.1 hnil.symm
        exact .new hl hn hnext
  | @follow _ _ _ rest _ target hl hn hnext hrest ih =>
      -- Behind a link, the parts of its target come first.
      rcases List.append_eq_cons_iff.1 hparts with ⟨rfl, rfl⟩ | ⟨a', rfl, rfl⟩
      · simpa using FileTree.Walks.follow hl hn hnext (ih rfl)
      · refine .follow hl hn hnext ?_
        simpa using ih (a := target.steps ++ a') (by simp)
  | enter hl hn hnext he hrest ih =>
      rcases List.append_eq_cons_iff.1 hparts with ⟨rfl, rfl⟩ | ⟨a', rfl, rfl⟩
      · simpa using FileTree.Walks.enter hl hn hnext he (ih (a := []) rfl)
      · exact .enter hl hn hnext he (ih rfl)

/-! ## Zeros -/

theorem Path.mem_of_mem_splitSlash {cs s : List Char} {c : Char} (hs : s ∈ splitSlash cs)
    (hc : c ∈ s) : c ∈ cs := by
  induction cs generalizing s with
  | nil =>
      have hnil : s = [] := by simpa [splitSlash] using hs
      simp [hnil] at hc
  | cons x cs ih =>
      by_cases hx : x = '/'
      · rw [splitSlash, if_pos hx] at hs
        rcases List.mem_cons.1 hs with hnil | hs
        · simp [hnil] at hc
        · exact List.mem_cons_of_mem _ (ih hs hc)
      · rw [splitSlash, if_neg hx] at hs
        cases hsplit : splitSlash cs with
        | nil =>
            have hone : s = [x] := by simpa [hsplit] using hs
            have hcx : c = x := by simpa [hone] using hc
            exact hcx ▸ List.mem_cons_self
        | cons first rest =>
            have hcases : s = x :: first ∨ s ∈ rest := by simpa [hsplit] using hs
            rcases hcases with hfirst | hrest
            · rcases List.mem_cons.1 (hfirst ▸ hc) with hcx | hcf
              · exact hcx ▸ List.mem_cons_self
              · exact List.mem_cons_of_mem _ (ih (by simp [hsplit]) hcf)
            · exact List.mem_cons_of_mem _ (ih (by simp [hsplit, hrest]) hc)

/-- A path without a zero has no part with one. -/
theorem Path.hasZero_eq_false {p : Path} (h : p.hasZero = false) {part : Part}
    (hpart : part ∈ p.allParts) : part.hasZero = false := by
  obtain ⟨s, hs, hofText⟩ := List.mem_filterMap.1 hpart
  rw [Part.ofText?] at hofText
  split at hofText
  · cases hofText
  · split at hofText
    · cases hofText; rfl
    · split at hofText
      · cases hofText; rfl
      · cases hofText
        have hzero : '\x00' ∉ p.text.toList := by simpa [Path.hasZero] using h
        have hnot : '\x00' ∉ s := fun hmem => hzero (mem_of_mem_splitSlash hs hmem)
        simpa [Part.hasZero] using hnot

namespace Workspace

variable {w : Workspace} {p q : Path} {n : String} {l : Location}

theorem hasZero_of_refusal (h : refusal? p = none) : p.hasZero = false := by
  rw [refusal?] at h
  split at h
  · cases h
  · simpa using ‹¬ p.hasZero = true›

theorem isTooLong_of_refusal (h : refusal? p = none) : p.isTooLong = false := by
  rw [refusal?] at h
  split at h
  · cases h
  · split at h
    · cases h
    · simpa using h

/-! ## Places -/

/-- What a path is compared by is what it leads over, without dots, and the name it ends in. -/
theorem parts_eq_of_getLast? (h : p.allParts.getLast? = some (.name n)) :
    ∃ parents, p.parts = parents ++ [.name n] ∧
      ∀ t links start m, FileTree.Walks t links start p.allParts.dropLast m →
        FileTree.Walks t links start parents m := by
  obtain ⟨before, hall⟩ := List.getLast?_eq_some_iff.1 h
  cases before with
  | nil => exact ⟨[], by simp [Path.parts, hall], by simp [hall]⟩
  | cons first rest =>
      have hdrop : p.allParts.dropLast = first :: rest := by rw [hall, List.dropLast_concat]
      by_cases hfirst : first = .here ∧ p.text.toList.head? = some '/'
      · refine ⟨rest.filter (· ≠ .here), by simp [Path.parts, hall, hfirst], ?_⟩
        intro t links start m hwalks
        rw [hdrop, hfirst.1] at hwalks
        simpa using hwalks.drop_here (a := [])
      · refine ⟨first :: rest.filter (· ≠ .here), by simp [Path.parts, hall, hfirst], ?_⟩
        intro t links start m hwalks
        rw [hdrop] at hwalks
        exact hwalks.drop_here (a := [first])

/-- A path that a file can be moved to has a directory, and a name in it. -/
theorem exists_parent_of_slot (h : w.slot p = .ok l) : ∃ d n, p.fileName? = some n ∧
    w.parent p = .ok d ∧ w.tree.get? d = some .dir ∧ l = d ++ [n] := by
  obtain ⟨d, n, hnames, hwalks, hd, rfl⟩ := slot_eq_ok_iff.1 h
  obtain ⟨parents, hparts, hparents⟩ := parts_eq_of_getLast? hnames.last
  have hname : p.fileName? = some n := by simp [Path.fileName?, hparts]
  have hparent : p.parentParts = parents := by simp [Path.parentParts, hparts]
  have hzero : ∀ part ∈ parents, part.hasZero = false := by
    intro part hpart
    have hmem : part ∈ p.allParts := Path.mem_allParts_of_mem_parts (by simp [hparts, hpart])
    exact Path.hasZero_eq_false (hasZero_of_refusal hnames.refusal) hmem
  have hwalk := FileTree.walk_of_walks (hparents _ _ _ _ hwalks)
  have hresolved : w.parent p = .ok d := by
    simpa [parent, hparent, hwalk, hd] using hzero
  exact ⟨d, n, hname, hresolved, hd, rfl⟩

/-- The entry that a file is moved to is the one that paths are compared by. -/
theorem place?_of_slot (h : w.slot p = .ok l) : w.place? p = some l := by
  obtain ⟨d, n, hname, hparent, -, rfl⟩ := exists_parent_of_slot h
  simp [place?, hname, hparent]

theorem directory_of_slot (h : w.slot p = .ok l) : w.directory p = .ok l.dropLast := by
  obtain ⟨d, n, -, hparent, hd, rfl⟩ := exists_parent_of_slot h
  simp [directory, hparent, hd]

end Workspace

namespace Endpoints

open Workspace

variable {w : Workspace} {p q : Path} {l : Location} {e : Endpoints}

theorem sameEntry_of_slot (hp : w.slot p = .ok l) (hq : w.slot q = .ok l) :
    sameEntry w p q = true := by
  simp [sameEntry, place?_of_slot hp, place?_of_slot hq]

/-- Paths that pass the check name three entries. -/
theorem slot_ne_of_check (h : e.check w = .ok ()) :
    (∀ l, w.slot e.image = .ok l → w.slot e.palette ≠ .ok l) ∧
    ∀ out ∈ [e.image, e.palette], ∀ l, w.slot out = .ok l → w.slot e.source ≠ .ok l := by
  rw [check] at h
  split at h
  · cases h
  · rename_i hpair
    split at h
    · cases h
    · rename_i hnone
      refine ⟨fun l himage hpalette => hpair (sameEntry_of_slot himage hpalette), ?_⟩
      intro out hout l hl hsource
      have hdifferent := List.find?_eq_none.1 hnone out hout
      exact hdifferent (sameEntry_of_slot hl hsource)

end Endpoints

end PaletteBitmap

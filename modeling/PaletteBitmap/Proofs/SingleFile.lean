import Mathlib
import PaletteBitmap.Proofs.Delivery
import PaletteBitmap.Proofs.Entries

/-!
# Writing one file

A file that is written through a temporary file beside it either stands in its place or has left
no trace.  Which of the two it is can be said beforehand (`Workspace.Writable`): the path has to name
an entry, and not one that is a directory.
-/

namespace PaletteBitmap

namespace Workspace

/-- A file can be moved to a path. -/
def Writable (w : Workspace) (p : Path) : Prop :=
  ∃ l, w.slot p = .ok l ∧ w.tree.get? l ≠ some .dir

/-- The workspace with a temporary file in a directory. -/
def staged (w : Workspace) (d : Location) (data : List UInt8) : Workspace :=
  w.withTree (w.tree.put (d ++ [w.freshName]) (.file data))

variable {w : Workspace} {p : Path} {d l : Location} {data : List UInt8}

theorem writable_of_none (hslot : w.slot p = .ok l) (hl : w.tree.get? l = none) :
    w.Writable p :=
  ⟨l, hslot, by simp [hl]⟩

theorem stage_eq_staged (hd : w.directory p = .ok d) (data : List UInt8) :
    w.stage p data = .ok (w.staged d data, ⟨p, w.freshName⟩) :=
  stage_eq_ok hd

theorem get?_staged (hd : w.directory p = .ok d) (data : List UInt8) (m : Location) :
    (w.staged d data).tree.get? m =
      if m = d ++ [w.freshName] then some (.file data) else w.tree.get? m :=
  get?_put_of_ne_nil ((hidden_freshName w).spare hd).ne_nil m

/-- A temporary file is no hindrance to what is done with paths. -/
theorem alike_staged (hd : w.directory p = .ok d) (data : List UInt8) :
    Alike w (w.staged d data) [] :=
  (Alike.refl w).put (.inr ((hidden_freshName w).spare hd).not_spelled)

theorem persist_staged (hd : w.directory p = .ok d) (hslot : w.slot p = .ok l)
    (hdir : w.tree.get? l ≠ some .dir) (data : List UInt8) :
    (w.staged d data).persist ⟨p, w.freshName⟩ p =
      .ok ((w.staged d data).moved (d ++ [w.freshName]) l (.file data)) := by
  have hspare := (hidden_freshName w).spare hd
  have halike := alike_staged hd data
  refine persist_eq_ok (halike.locate (by simp) hspare.locate) (halike.slot (by simp) hslot) ?_ ?_
  · simp [get?_staged hd]
  · simpa [get?_staged hd, hspare.ne_slot hslot] using hdir

theorem persist_staged_error (hd : w.directory p = .ok d)
    (hnot : ∀ l, w.slot p = .ok l → w.tree.get? l = some .dir) (data : List UInt8) :
    ∃ x, (w.staged d data).persist ⟨p, w.freshName⟩ p = .error x := by
  have hspare := (hidden_freshName w).spare hd
  have halike := alike_staged hd data
  have hlocate := halike.locate (by simp) hspare.locate
  cases hslot : w.slot p with
  | ok l =>
      -- A directory stands in the place, before and after staging.
      have hdir : (w.staged d data).tree.get? l = some .dir := by
        rw [get?_staged hd, if_neg (hspare.ne_slot hslot), hnot l hslot]
      have hslot' := halike.slot (by simp) hslot
      exact ⟨.isADirectory, by simp [persist, moveTo, hlocate, hslot', hdir, get?_staged hd]⟩
  | error x =>
      have hnone : ∀ l, (w.staged d data).slot p ≠ .ok l := by
        intro l hl
        simpa [hslot] using halike.slot_back (by simp) hl
      obtain ⟨y, hy⟩ := exists_slot_error hnone
      exact ⟨y, by simp [persist, moveTo, hlocate, hy]⟩

end Workspace

namespace Output

open Workspace

variable {w : Workspace} {p : Path} {l : Location}

/-- The workspace with one file written, and everything else as it was. -/
structure Wrote (w w' : Workspace) (l : Location) (data : List UInt8) : Prop where
  current : w'.current = w.current
  get? : ∀ m, w'.tree.get? m = if m = l then some (.file data) else w.tree.get? m

/-- The file is found at its path, unless the path was a link that something led through. -/
theorem Wrote.read {w' : Workspace} {data : List UInt8} (h : Wrote w w' l data)
    (hslot : w.slot p = .ok l) (hdir : w.tree.get? l ≠ some .dir) (hlink : w.NamesNoLink p) :
    w'.read p = .ok data := by
  have halike : Alike w w' [l] := by
    refine ⟨h.current, fun m _ => ?_⟩
    by_cases hm : m = l
    · exact .inr (by simp [hm])
    · exact .inl (by rw [h.get?, if_neg hm])
  have himpassable : ∀ x ∈ [l], w.tree.Impassable x := by
    simpa using hlink.impassable hslot hdir
  exact read_of_slot (halike.slot himpassable hslot) (by rw [h.get?, if_pos rfl])

theorem writeFile_of_slot (hslot : w.slot p = .ok l) (hdir : w.tree.get? l ≠ some .dir)
    (data : List UInt8) : ∃ w', writeFile w p data = (.ok (), w') ∧ Wrote w w' l data := by
  obtain ⟨d, hd⟩ : ∃ d, w.directory p = .ok d := ⟨_, directory_of_slot hslot⟩
  have hspare := (hidden_freshName w).spare hd
  refine ⟨(w.staged d data).moved (d ++ [w.freshName]) l (.file data), ?_, rfl, ?_⟩
  · simp only [writeFile, stage_eq_staged hd, persist_staged hd hslot hdir]
  · intro m
    rw [get?_moved (ne_nil_of_slot hslot) hspare.ne_nil, get?_staged hd]
    -- Where the temporary file stood, nothing stood before.
    by_cases hm : m = d ++ [w.freshName]
    · simp [hm, (hspare.ne_slot hslot).symm, hspare.empty]
    · simp [hm]

theorem writeFile_of_not_writable (h : ¬ w.Writable p) (data : List UInt8) :
    ∃ e w', writeFile w p data = (.error (.io p e), w') ∧
      ∀ m, w'.tree.get? m = w.tree.get? m := by
  cases hd : w.directory p with
  | error x => exact ⟨x, w, by simp [writeFile, stage, hd], fun _ => rfl⟩
  | ok d =>
      have hnot : ∀ l, w.slot p = .ok l → w.tree.get? l = some .dir := by
        intro l hslot
        by_contra hdir
        exact h ⟨l, hslot, hdir⟩
      obtain ⟨x, hx⟩ := persist_staged_error hd hnot data
      refine ⟨x, (w.staged d data).drop ⟨p, w.freshName⟩, ?_, ?_⟩
      · simp only [writeFile, stage_eq_staged hd, hx]
      · intro m
        exact OutputPair.get?_drop_stage hd m

theorem writeFile_eq_ok_iff (data : List UInt8) :
    (writeFile w p data).1 = .ok () ↔ w.Writable p := by
  constructor
  · intro hok
    by_contra hnot
    obtain ⟨e, w', hwrite, -⟩ := writeFile_of_not_writable hnot data
    simp [hwrite] at hok
  · rintro ⟨l, hslot, hdir⟩
    obtain ⟨w', hwrite, -⟩ := writeFile_of_slot hslot hdir data
    rw [hwrite]

end Output

end PaletteBitmap

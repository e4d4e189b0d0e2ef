import Mathlib
import PaletteBitmap.Proofs.Entries
import PaletteBitmap.Proofs.SingleFile

/-!
# Paths that spell locations

The path of a location names the entry there (`Workspace.slot_path`), if its names can be spelled
(`IsName`) and every location on the way is a directory (`FileTree.Open`).  The check of a request
turns down just the paths that name one entry twice, and a pair of files is written wherever nothing
stood.
-/

namespace PaletteBitmap

/-! ## Spelling -/

/-- A text that is the name of an entry and nothing else. -/
structure IsName (n : String) : Prop where
  slash : '/' ∉ n.toList
  zero : '\x00' ∉ n.toList
  ne_empty : n ≠ ""
  ne_here : n ≠ "."
  ne_up : n ≠ ".."

theorem IsName.ofText?_eq {n : String} (h : IsName n) : Part.ofText? n = some (.name n) := by
  rw [Part.ofText?, if_neg h.ne_empty, if_neg h.ne_here, if_neg h.ne_up]

namespace Path

theorem splitSlash_ne_nil (cs : List Char) : splitSlash cs ≠ [] := by
  rw [splitSlash.eq_def]
  split
  · simp
  · split
    · simp
    · split
      · simp
      · simp

/-- A slash ends a piece wherever it stands. -/
theorem splitSlash_append_slash (cs rest : List Char) :
    splitSlash (cs ++ '/' :: rest) = splitSlash cs ++ splitSlash rest := by
  induction cs with
  | nil => simp [splitSlash]
  | cons c cs ih =>
      rw [List.cons_append, splitSlash, splitSlash, ih]
      by_cases hc : c = '/'
      · rw [if_pos hc, if_pos hc, List.cons_append]
      · rw [if_neg hc, if_neg hc]
        cases hcs : splitSlash cs with
        | nil => exact absurd hcs (splitSlash_ne_nil cs)
        | cons first pieces => rfl

theorem splitSlash_of_notMem {cs : List Char} (h : '/' ∉ cs) : splitSlash cs = [cs] := by
  induction cs with
  | nil => rfl
  | cons c cs ih =>
      obtain ⟨hc, hcs⟩ := not_or.1 (List.mem_cons.not.1 h)
      rw [splitSlash, if_neg (Ne.symm hc), ih hcs]

end Path

namespace Location

variable {l d : Location} {n : String}

theorem toList_foldl (l : Location) (s : String) :
    (l.foldl (fun s n => s ++ "/" ++ n) s).toList = s.toList ++ l.flatMap fun n => '/' :: n.toList := by
  induction l generalizing s with
  | nil => simp
  | cons n l ih => simp [ih]

theorem toList_path (h : l ≠ []) : l.path.text.toList = l.flatMap fun n => '/' :: n.toList := by
  rw [path, if_neg h, toList_foldl]
  rfl

theorem isAbsolute_path (l : Location) : l.path.isAbsolute = true := by
  cases l with
  | nil => decide
  | cons n l => simp [Path.isAbsolute, toList_path]

/-- The texts between the slashes are the names. -/
theorem splitSlash_names (hl : ∀ n ∈ l, IsName n) {cs : List Char} (hcs : '/' ∉ cs) :
    Path.splitSlash (cs ++ l.flatMap fun n => '/' :: n.toList) = cs :: l.map String.toList := by
  induction l generalizing cs with
  | nil => simpa using Path.splitSlash_of_notMem hcs
  | cons n l ih =>
      rw [List.flatMap_cons, List.cons_append, Path.splitSlash_append_slash,
        Path.splitSlash_of_notMem hcs,
        ih (fun m hm => hl m (List.mem_cons_of_mem n hm)) (hl n List.mem_cons_self).slash,
        List.map_cons, List.singleton_append]

theorem allParts_path (hl : ∀ n ∈ l, IsName n) (hne : l ≠ []) :
    l.path.allParts = l.map .name := by
  have hsplit := splitSlash_names hl (List.not_mem_nil (a := '/'))
  have hempty : Part.ofText? (String.ofList []) = none := by decide
  have hparts : ∀ n ∈ l, Part.ofText? (String.ofList n.toList) = some (.name n) := by
    intro n hn
    rw [String.ofList_toList, (hl n hn).ofText?_eq]
  rw [List.nil_append, ← toList_path hne] at hsplit
  rw [Path.allParts, hsplit,
    List.filterMap_cons_none (f := fun s => Part.ofText? (String.ofList s)) hempty,
    List.filterMap_map]
  exact List.filterMap_eq_map_iff_forall_eq_some.2 hparts

theorem endsInSlash_path (hn : IsName n) : (path (d ++ [n])).endsInSlash = false := by
  have hlast : (path (d ++ [n])).text.toList.getLast? = n.toList.getLast? := by
    have hne : n.toList ≠ [] := by simpa using hn.ne_empty
    rw [toList_path (by simp), List.flatMap_append, List.flatMap_singleton,
      List.getLast?_append_of_ne_nil _ (by simp), List.getLast?_cons_of_ne_nil hne]
  rw [Path.endsInSlash, hlast, beq_eq_false_iff_ne]
  intro hslash
  exact hn.slash (List.mem_of_getLast? hslash)

theorem hasZero_path (hl : ∀ n ∈ l, IsName n) (hne : l ≠ []) : l.path.hasZero = false := by
  rw [Path.hasZero, toList_path hne, List.contains_eq_mem, decide_eq_false_iff_not,
    List.mem_flatMap]
  rintro ⟨n, hn, hmem⟩
  rcases List.mem_cons.1 hmem with hslash | hzero
  · exact absurd hslash (by decide)
  · exact (hl n hn).zero hzero

theorem text_path_concat (d : Location) (n : String) :
    (path (d ++ [n])).text = d.foldl (fun s n => s ++ "/" ++ n) "" ++ "/" ++ n := by
  rw [path, if_neg (by simp), List.foldl_append]
  rfl

/-- A shorter name makes a shorter path. -/
theorem isTooLong_path_of_le {m : String} (h : (path (d ++ [m])).isTooLong = false)
    (hle : n.utf8ByteSize ≤ m.utf8ByteSize) : (path (d ++ [n])).isTooLong = false := by
  rw [Path.isTooLong, decide_eq_false_iff_not, text_path_concat] at h ⊢
  simp only [String.utf8ByteSize_append] at h ⊢
  omega

end Location

/-! ## Ways over directories -/

namespace FileTree

/-- All locations on the way from `l` over some names are directories, the last one included. -/
def Open (t : FileTree) (l : Location) (names : List String) : Prop :=
  ∀ k ≤ names.length, t.get? (l ++ names.take k) = some .dir

theorem Open.walks {t : FileTree} {links : Nat} {l : Location} {names : List String}
    (h : t.Open l names) (hshort : ∀ n ∈ names, (Part.name n).isTooLong = false) :
    t.Walks links l (names.map .name) (l ++ names) := by
  induction names generalizing l with
  | nil => simpa using Walks.done
  | cons n names ih =>
      have hl : t.get? l = some .dir := by simpa using h 0 (Nat.zero_le _)
      have hnext : t.get? (l ++ [n]) = some .dir := by simpa using h 1 (by simp)
      have hrest : t.Open (l ++ [n]) names := by
        intro k hk
        simpa using h (k + 1) (by simpa using hk)
      have hwalks := ih hrest fun m hm => hshort m (List.mem_cons_of_mem n hm)
      rw [List.map_cons, List.append_cons]
      exact .enter hl (hshort n List.mem_cons_self) hnext (by simp) hwalks

end FileTree

namespace Workspace

variable {w : Workspace} {d l m : Location} {n : String} {p q : Path}

/-- The path of a location names the entry there. -/
theorem slot_path (hopen : w.tree.Open [] d) (hnames : ∀ m ∈ d ++ [n], IsName m)
    (hshort : ∀ m ∈ d ++ [n], (Part.name m).isTooLong = false)
    (hlong : (Location.path (d ++ [n])).isTooLong = false) :
    w.slot (Location.path (d ++ [n])) = .ok (d ++ [n]) := by
  have hparts := Location.allParts_path hnames (by simp)
  have habsolute := Location.isAbsolute_path (d ++ [n])
  have hn : n ∈ d ++ [n] := by simp
  have htext : (Location.path (d ++ [n])).text ≠ "" := by
    intro hempty
    simp [Path.isAbsolute, hempty] at habsolute
  refine slot_eq_ok_iff.2 ⟨d, n, ⟨?_, ?_, hshort n hn, Location.endsInSlash_path (hnames n hn)⟩,
    ?_, by simpa using hopen d.length (Nat.le_refl _), rfl⟩
  · rw [refusal?, Location.hasZero_path hnames (by simp), hlong]
    simp [htext]
  · simp [hparts]
  · have hwalks : w.tree.Walks FileTree.maxLinks [] (d.map .name) ([] ++ d) :=
      hopen.walks fun m hm => hshort m (List.mem_append_left _ hm)
    simpa [hparts, start, habsolute] using hwalks

/-- Paths that are compared by the same parts have the same place. -/
theorem place?_eq_of_same (h : p.same q = true) : w.place? p = w.place? q := by
  rw [Path.same, Bool.and_eq_true, beq_iff_eq, beq_iff_eq] at h
  obtain ⟨habsolute, hparts⟩ := h
  rw [place?, place?, Path.fileName?, Path.fileName?, parent, parent, start, start,
    Path.parentParts, Path.parentParts, habsolute, hparts]

end Workspace

/-! ## Requests that pass -/

namespace Endpoints

open Workspace

variable {w : Workspace} {p q : Path} {l m : Location} {e : Endpoints}

/-- Whether two paths with places are alike, their places decide alone. -/
theorem sameEntry_iff_of_place (hp : w.place? p = some l) (hq : w.place? q = some m) :
    sameEntry w p q = true ↔ l = m := by
  constructor
  · intro h
    rw [sameEntry, Bool.or_eq_true] at h
    rcases h with hsame | hplaces
    · simpa [hp, hq] using place?_eq_of_same (w := w) hsame
    · simpa [hp, hq] using hplaces
  · rintro rfl
    simp [sameEntry, hp, hq]

/-- The check compares three places, those of the two outputs first. -/
theorem check_of_place {i o s : Location} (himage : w.place? e.image = some i)
    (hpalette : w.place? e.palette = some o) (hsource : w.place? e.source = some s) :
    e.check w =
      if i = o then
        .error (.invalidOutputPaths ("image and palette both write to " ++ e.image.text))
      else if i = s then
        .error (.invalidOutputPaths (e.image.text ++ " would overwrite the source image"))
      else if o = s then
        .error (.invalidOutputPaths (e.palette.text ++ " would overwrite the source image"))
      else .ok () := by
  simp only [check, List.find?_cons, List.find?_nil, sameEntry_iff_of_place himage hpalette]
  split_ifs with hio his hos
  · rfl
  · rw [(sameEntry_iff_of_place himage hsource).2 his]
  · rw [Bool.eq_false_iff.2 ((sameEntry_iff_of_place himage hsource).not.2 his),
      (sameEntry_iff_of_place hpalette hsource).2 hos]
  · rw [Bool.eq_false_iff.2 ((sameEntry_iff_of_place himage hsource).not.2 his),
      Bool.eq_false_iff.2 ((sameEntry_iff_of_place hpalette hsource).not.2 hos)]

/-- Paths that name three entries pass the check. -/
theorem check_of_slot_ne {i o s : Location} (himage : w.slot e.image = .ok i)
    (hpalette : w.slot e.palette = .ok o) (hsource : w.slot e.source = .ok s) (hio : i ≠ o)
    (his : i ≠ s) (hos : o ≠ s) : e.check w = .ok () := by
  rw [check_of_place (place?_of_slot himage) (place?_of_slot hpalette) (place?_of_slot hsource),
    if_neg hio, if_neg his, if_neg hos]

end Endpoints

/-! ## Pairs where nothing stood -/

namespace OutputPair

open Workspace

variable {w : Workspace} {l₁ l₂ : Location}

/-- Two files are delivered to two places where nothing stands. -/
theorem commit_of_none (out : OutputPair) (hslot₁ : w.slot out.image = .ok l₁)
    (hslot₂ : w.slot out.palette = .ok l₂) (hne : l₁ ≠ l₂) (hnone₁ : w.tree.get? l₁ = none)
    (hnone₂ : w.tree.get? l₂ = none) (image palette : List UInt8) :
    ∃ w', commit w out image palette = (.ok (), w') ∧ Delivered w w' out image palette := by
  obtain ⟨v, s₁, s₂, m₁, m₂, hstaged, hcommit⟩ := exists_staged image palette
    (directory_of_slot hslot₁) (directory_of_slot hslot₂)
  have hbut : ∀ x ∈ [l₁], w.tree.Impassable x := by
    simpa using FileTree.impassable_of_none hnone₁
  -- The image goes to its place, with nothing to set aside.
  have hfile : w.isFile out.image = false := isFile_eq_false hslot₁ (.inl hnone₁)
  have haside : Output.setAside v out.image = .ok (v, none) := by
    simp [Output.setAside, hstaged.alike.isFile_eq, hfile]
  have hfirst : v.persist s₁ out.image = .ok (v.moved m₁ l₁ (.file image)) :=
    persist_eq_ok hstaged.locate (hstaged.alike.slot (by simp) hslot₁) hstaged.get?_staged
      (by simp [hstaged.get?_slot hslot₁, hnone₁])
  have hplaced : Placed w (v.moved m₁ l₁ (.file image)) out.image s₂ none l₁ m₂ image palette :=
    placed_of_not_isFile hstaged hslot₁ (by simp [hnone₁])
  -- The place of the palette is still free.
  have hfree : (v.moved m₁ l₁ (.file image)).tree.get? l₂ = none :=
    (hplaced.others l₂ hne.symm (hplaced.spare.ne_slot hslot₂) (by simp)).trans hnone₂
  have hsecond := persist_eq_ok (hplaced.alike.locate hbut hplaced.spare.locate)
    (hplaced.alike.slot hbut hslot₂) hplaced.palette (by simp [hfree])
  have hok : commit w out image palette =
      (.ok (), (v.moved m₁ l₁ (.file image)).moved m₂ l₂ (.file palette)) := by
    rw [hcommit]
    simp [promote, haside, hfirst, hsecond]
  have hapart : ∀ l, w.slot out.image = .ok l → w.slot out.palette ≠ .ok l := by
    intro l hl hl'
    cases hslot₁.symm.trans hl
    cases hslot₂.symm.trans hl'
    exact hne rfl
  exact ⟨_, hok, commit_delivered hapart (namesNoLink_of_slot hslot₁ hnone₁ (by simp))
    (namesNoLink_of_slot hslot₂ hnone₂ (by simp)) hok⟩

end OutputPair

end PaletteBitmap

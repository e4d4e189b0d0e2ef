import Mathlib
import PaletteBitmap.Proofs.LocationPath

/-!
# Entries and the paths that name them

A path names an entry by the directory that it leads to and the name it ends in (`NamesEntry`).
An entry has many paths.  Any path to its directory can be put in front of its name, with dots,
repeated slashes, links and ways up and down again (`namesEntry_child`), the name can stand by
itself where its directory is the current one (`namesEntry_ofName`), and all paths with the same
parts name the same entry (`NamesEntry.of_same`).

The check of a request looks at the entries alone (`Endpoints.check_by_entries`): it passes where
the three paths name three of them.
-/

namespace PaletteBitmap

/-- The path to a name behind the path to its directory. -/
def Path.child (dir : Path) (n : String) : Path := ⟨dir.text ++ "/" ++ n⟩

namespace Workspace

/-- A path ends in a name, and what it leads over to there is a directory. -/
structure NamesEntry (w : Workspace) (p : Path) (entry : Location × String) : Prop where
  fileName : p.fileName? = some entry.2
  directory : w.directory p = .ok entry.1

variable {w : Workspace} {p q dir : Path} {d : Location} {n : String} {entry : Location × String}

namespace NamesEntry

theorem place?_eq (h : w.NamesEntry p entry) : w.place? p = some (entry.1 ++ [entry.2]) := by
  have hdirectory := h.directory
  rw [Workspace.directory] at hdirectory
  split at hdirectory
  · cases hdirectory
  · next l hparent =>
    split at hdirectory
    · cases hdirectory
      rw [place?, h.fileName, hparent]
    · cases hdirectory

theorem of_same (h : w.NamesEntry p entry) (hsame : p.same q = true) : w.NamesEntry q entry := by
  rw [Path.same, Bool.and_eq_true, beq_iff_eq, beq_iff_eq] at hsame
  obtain ⟨habsolute, hparts⟩ := hsame
  have hname := h.fileName
  have hdirectory := h.directory
  rw [Path.fileName?, hparts] at hname
  rw [Workspace.directory, parent, start, Path.parentParts, hparts, habsolute] at hdirectory
  exact ⟨hname, hdirectory⟩

end NamesEntry

/-! ## Spelling an entry -/

theorem hasZero_name (hn : IsName n) : (Part.name n).hasZero = false := by
  simpa [Part.hasZero] using hn.zero

theorem allParts_child (dir : Path) (hn : IsName n) :
    (dir.child n).allParts = dir.allParts ++ [.name n] := by
  have htext : (dir.child n).text.toList = dir.text.toList ++ '/' :: n.toList := by
    simp [Path.child]
  rw [Path.allParts, htext, Path.splitSlash_append_slash, Path.splitSlash_of_notMem hn.slash,
    List.filterMap_append]
  simp [Path.allParts, hn.ofText?_eq]

theorem start_child (w : Workspace) (hne : dir.text ≠ "") (n : String) :
    w.start (dir.child n) = w.start dir := by
  have hhead : (dir.child n).isAbsolute = dir.isAbsolute := by
    have hlist : dir.text.toList ≠ [] := by simpa using hne
    simp [Path.isAbsolute, Path.child, List.head?_append_of_ne_nil _ hlist]
  rw [start, start, hhead]

/-- What a path to a directory is followed over. -/
theorem walks_of_find (h : w.find dir = .ok (d, .dir)) : refusal? dir = none ∧
    w.tree.Walks FileTree.maxLinks (w.start dir) dir.allParts d ∧ w.tree.get? d = some .dir := by
  rw [find, reach] at h
  cases hrefusal : refusal? dir with
  | some e => simp [hrefusal] at h
  | none =>
      cases hwalk : w.tree.walk FileTree.maxLinks (w.start dir) dir.steps with
      | error e => simp [hrefusal, hwalk] at h
      | ok l =>
          cases hl : w.tree.get? l with
          | none => simp [hrefusal, hwalk, hl] at h
          | some e =>
              obtain ⟨rfl, rfl⟩ : l = d ∧ e = .dir := by simpa [hrefusal, hwalk, hl] using h
              have hwalks := FileTree.walks_of_walk hwalk
              refine ⟨rfl, ?_, hl⟩
              rw [Path.steps] at hwalks
              split at hwalks
              -- A slash at the end asks for a directory, and this is one.
              · simpa using hwalks.drop_here
              · exact hwalks

/-- However its directory is spelled, a name behind it names the entry there. -/
theorem namesEntry_child (hdir : w.find dir = .ok (d, .dir)) (hn : IsName n) :
    w.NamesEntry (dir.child n) (d, n) := by
  obtain ⟨hrefusal, hwalks, hd⟩ := walks_of_find hdir
  -- The empty path leads nowhere, so the first character of the whole path is the directory's.
  have hne : dir.text ≠ "" := by
    intro hempty
    rw [refusal?, if_pos hempty] at hrefusal
    split at hrefusal
    · cases hrefusal
    · cases hrefusal
  have hall := allParts_child dir hn
  obtain ⟨parents, hparts, hparents⟩ := parts_eq_of_getLast? (p := dir.child n) (n := n)
    (by simp [hall])
  refine ⟨by simp [Path.fileName?, hparts], directory_eq_ok_iff.2 ⟨?_, ?_, hd⟩⟩
  · rw [Path.parentParts, hparts, List.dropLast_concat, List.any_eq_false]
    intro part hpart
    have hmem : part ∈ (dir.child n).allParts :=
      Path.mem_allParts_of_mem_parts (by simp [hparts, hpart])
    rw [hall, List.mem_append, List.mem_singleton] at hmem
    rcases hmem with hmem | rfl
    · simp [Path.hasZero_eq_false (hasZero_of_refusal hrefusal) hmem]
    · simp [hasZero_name hn]
  · rw [start_child w hne, Path.parentParts, hparts, List.dropLast_concat]
    exact hparents _ _ _ _ (by simpa [hall] using hwalks)

/-- A name by itself names an entry of the current directory. -/
theorem namesEntry_ofName (hcurrent : w.tree.get? w.current = some .dir) (hn : IsName n) :
    w.NamesEntry ⟨n⟩ (w.current, n) := by
  have hall : (Path.mk n).allParts = [.name n] := by
    simp [Path.allParts, Path.splitSlash_of_notMem hn.slash, hn.ofText?_eq]
  have hparts : (Path.mk n).parts = [.name n] := by simp [Path.parts, hall]
  -- A name has no slash in it, let alone in front.
  have hrelative : (Path.mk n).isAbsolute = false := by
    rw [Path.isAbsolute, beq_eq_false_iff_ne]
    exact fun hhead => hn.slash (List.mem_of_head? hhead)
  refine ⟨by simp [Path.fileName?, hparts], directory_eq_ok_iff.2 ⟨?_, ?_, hcurrent⟩⟩
  · simp [Path.parentParts, hparts]
  · rw [Path.parentParts, hparts, start, hrelative]
    exact .done

end Workspace

namespace Endpoints

open Workspace

variable {w : Workspace} {e : Endpoints} {source image palette : Location × String}

/-! ## The check -/

theorem concat_eq_iff {x y : Location × String} : x.1 ++ [x.2] = y.1 ++ [y.2] ↔ x = y := by
  rw [Prod.ext_iff]
  simp

/-- The check compares three entries, those of the two outputs first. -/
theorem check_of_namesEntry (hsource : w.NamesEntry e.source source)
    (himage : w.NamesEntry e.image image) (hpalette : w.NamesEntry e.palette palette) :
    e.check w =
      if image = palette then
        .error (.invalidOutputPaths ("image and palette both write to " ++ e.image.text))
      else if image = source then
        .error (.invalidOutputPaths (e.image.text ++ " would overwrite the source image"))
      else if palette = source then
        .error (.invalidOutputPaths (e.palette.text ++ " would overwrite the source image"))
      else .ok () := by
  rw [check_of_place himage.place?_eq hpalette.place?_eq hsource.place?_eq]
  simp only [concat_eq_iff]

theorem check_eq_ok_iff (hsource : w.NamesEntry e.source source)
    (himage : w.NamesEntry e.image image) (hpalette : w.NamesEntry e.palette palette) :
    e.check w = .ok () ↔ image ≠ palette ∧ image ≠ source ∧ palette ≠ source := by
  rw [check_of_namesEntry hsource himage hpalette]
  split_ifs with hboth hi hp
  · simp [hboth]
  · simp [hi]
  · simp [hp]
  · simp [hboth, hi, hp]

/-! ## Main statement -/

/-- A request names three entries, each by a directory and a name, and the check depends on them
alone.  It passes if no two of them are the same.  If the outputs are the same, this is the
complaint, whatever the source is; if only an output and the source are, that output is complained
about.  Other paths to the same entries pass just when these do. -/
theorem check_by_entries (hsource : w.NamesEntry e.source source)
    (himage : w.NamesEntry e.image image) (hpalette : w.NamesEntry e.palette palette) :
    (e.check w = .ok () ↔ image ≠ palette ∧ image ≠ source ∧ palette ≠ source) ∧
    (image = palette → e.check w =
      .error (.invalidOutputPaths ("image and palette both write to " ++ e.image.text))) ∧
    (image ≠ palette → image = source ∨ palette = source →
      ∃ out ∈ [e.image, e.palette], w.NamesEntry out source ∧ e.check w =
        .error (.invalidOutputPaths (out.text ++ " would overwrite the source image"))) ∧
    ∀ other : Endpoints, w.NamesEntry other.source source → w.NamesEntry other.image image →
      w.NamesEntry other.palette palette → (other.check w = .ok () ↔ e.check w = .ok ()) := by
  have hpasses := check_eq_ok_iff hsource himage hpalette
  have hcheck := check_of_namesEntry hsource himage hpalette
  refine ⟨hpasses, ?_, ?_, ?_⟩
  · intro hboth
    rw [hcheck, if_pos hboth]
  · intro hboth hclash
    rw [hcheck, if_neg hboth]
    by_cases hi : image = source
    · rw [if_pos hi]
      exact ⟨e.image, by simp, hi ▸ himage, rfl⟩
    · have hp : palette = source := hclash.resolve_left hi
      rw [if_neg hi, if_pos hp]
      exact ⟨e.palette, by simp, hp ▸ hpalette, rfl⟩
  · intro other hsource' himage' hpalette'
    rw [hpasses, check_eq_ok_iff hsource' himage' hpalette']

/-- A directory that is the current one, and a link to it beside it. -/
def linked : Workspace := ⟨⟨[(["out"], .dir), (["l"], .link ⟨"/out"⟩)]⟩, ["out"]⟩

/-- Three files of the current directory are kept apart, with or without the link.  A file that is
all three is complained about as one that is written twice. -/
theorem linked_names :
    check linked ⟨⟨"..//l/bg.png"⟩, ⟨"bg.img"⟩, ⟨"/l/bg.pal"⟩⟩ = .ok () ∧
    check linked ⟨⟨"bg.png"⟩, ⟨"./bg.img"⟩, ⟨"/l/bg.pal"⟩⟩ = .ok () ∧
    check linked ⟨⟨"bg.png"⟩, ⟨"..//l/bg.png"⟩, ⟨"bg.png"⟩⟩ =
      .error (.invalidOutputPaths "image and palette both write to ..//l/bg.png") := by
  have hpng : IsName "bg.png" := by constructor <;> decide
  have himg : IsName "bg.img" := by constructor <;> decide
  have hpal : IsName "bg.pal" := by constructor <;> decide
  have hup : linked.find ⟨"../l"⟩ = .ok (["out"], .dir) := by cbv
  have hhere : linked.find ⟨"."⟩ = .ok (["out"], .dir) := by cbv
  have hlink : linked.find ⟨"/l"⟩ = .ok (["out"], .dir) := by cbv
  have hsource : linked.NamesEntry ⟨"..//l/bg.png"⟩ (["out"], "bg.png") :=
    (namesEntry_child hup hpng).of_same (by decide)
  have hsource' : linked.NamesEntry ⟨"bg.png"⟩ (["out"], "bg.png") := namesEntry_ofName rfl hpng
  have himage : linked.NamesEntry ⟨"bg.img"⟩ (["out"], "bg.img") := namesEntry_ofName rfl himg
  have himage' : linked.NamesEntry ⟨"./bg.img"⟩ (["out"], "bg.img") :=
    namesEntry_child hhere himg
  have hpalette : linked.NamesEntry ⟨"/l/bg.pal"⟩ (["out"], "bg.pal") := namesEntry_child hlink hpal
  obtain ⟨hpasses, -, -, hothers⟩ := check_by_entries
    (e := ⟨⟨"..//l/bg.png"⟩, ⟨"bg.img"⟩, ⟨"/l/bg.pal"⟩⟩) hsource himage hpalette
  have hok := hpasses.2 (by decide)
  obtain ⟨-, htwice, -, -⟩ := check_by_entries
    (e := ⟨⟨"bg.png"⟩, ⟨"..//l/bg.png"⟩, ⟨"bg.png"⟩⟩) hsource' hsource hsource'
  exact ⟨hok, (hothers ⟨_, _, _⟩ hsource' himage' hpalette).2 hok, htwice rfl⟩

end Endpoints

end PaletteBitmap

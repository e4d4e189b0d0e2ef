import PaletteBitmap.Proofs.Walk

/-!
# Temporary files do not show

The name of a temporary file is longer than all others and consists of slashes.  So no path
leads to it, and a workspace with temporary files answers all questions about paths as it does
without them.  `Alike` is the relation between two such workspaces; it leaves out the location
that an operation is about to change.
-/

namespace PaletteBitmap

namespace Workspace

variable {w v : Workspace} {n : String} {l d x : Location} {p : Path} {e : Entry}
  {data : List UInt8} {but : List Location}

/-! ## Hidden names -/

def names (w : Workspace) : List String := w.current ++ w.tree.entries.flatMap (·.1)

/-- A name that no path can spell and no entry has. -/
structure Hidden (w : Workspace) (n : String) : Prop where
  slash : '/' ∈ n.toList
  notMem : n ∉ w.names

theorem hidden_freshName (w : Workspace) : w.Hidden w.freshName where
  slash := by simp [freshName]
  notMem := by
    intro hmem
    have hle : w.freshName.length ≤ (w.names.map (·.length)).foldl max 0 := by
      rw [List.foldl_max]
      have hlength : w.freshName.length ∈ w.names.map (·.length) :=
        List.mem_map.2 ⟨_, hmem, rfl⟩
      exact Nat.le_trans (List.le_max?_getD_of_mem hlength) (Nat.le_max_right _ _)
    have hlength : w.freshName.length = (w.names.map (·.length)).foldl max 0 + 1 := by
      simp [freshName, names]
    exact Nat.not_succ_le_self _ (hlength ▸ hle)

namespace Hidden

theorem not_spelled (h : w.Hidden n) (hn : n ∈ l) : ¬ Spelled w.names l := by
  intro hl
  rcases hl n hn with hmem | hslash
  · exact h.notMem hmem
  · exact hslash h.slash

theorem get?_eq_none (h : w.Hidden n) : w.tree.get? (d ++ [n]) = none := by
  rw [FileTree.get?, if_neg (by simp), List.lookup_eq_none_iff]
  intro e he
  have hne : e.1 ≠ d ++ [n] := by
    intro heq
    refine h.notMem (List.mem_append_right _ (List.mem_flatMap.2 ⟨e, he, ?_⟩))
    simp [heq]
  simpa using hne.symm

end Hidden

theorem mem_names_put (h : n ∈ w.names ∨ n ∈ l) :
    n ∈ (w.withTree (w.tree.put l e)).names := by
  simp only [names, withTree, FileTree.put, FileTree.erase, FileTree.filter, List.mem_append,
    List.flatMap_cons, List.mem_flatMap, List.mem_filter] at h ⊢
  rcases h with (h | ⟨x, hx, hn⟩) | h
  · exact .inl h
  · -- An entry that stood at the location has its names in the location itself.
    by_cases hl : x.1 = l
    · exact .inr (.inl (hl ▸ hn))
    · exact .inr (.inr ⟨x, ⟨hx, by simpa using hl⟩, hn⟩)
  · exact .inr (.inl h)

theorem Hidden.of_put (h : (w.withTree (w.tree.put l e)).Hidden n) : w.Hidden n ∧ n ∉ l :=
  ⟨⟨h.slash, fun hn => h.notMem (mem_names_put (.inl hn))⟩,
    fun hn => h.notMem (mem_names_put (.inr hn))⟩

/-! ## What paths lead to -/

theorem spelled_start (w : Workspace) (p : Path) : Spelled w.names (w.start p) := by
  rw [start]
  split
  · exact .nil
  · intro n hn
    exact .inl (List.mem_append_left _ hn)

theorem directory_eq_ok_iff : w.directory p = .ok d ↔
    p.parentParts.any Part.hasZero = false ∧
    w.tree.Walks FileTree.maxLinks (w.start p) p.parentParts d ∧ w.tree.get? d = some .dir := by
  rw [← FileTree.walk_eq_ok_iff, directory, parent]
  cases p.parentParts.any Part.hasZero with
  | true => simp
  | false =>
      cases w.tree.walk FileTree.maxLinks (w.start p) p.parentParts with
      | error e => simp
      | ok m =>
          constructor
          · intro h
            cases hm : w.tree.get? m with
            | none => simp [hm] at h
            | some e => cases e <;> simp_all
          · rintro ⟨-, hmd, hd⟩
            cases hmd
            simp [hd]

/-- A path that can name an entry for moving to or from it. -/
structure Names (p : Path) (n : String) : Prop where
  refusal : refusal? p = none
  last : p.allParts.getLast? = some (.name n)
  short : (Part.name n).isTooLong = false
  no_slash : p.endsInSlash = false

theorem slot_eq_ok_iff : w.slot p = .ok l ↔ ∃ d n, Names p n ∧
    w.tree.Walks FileTree.maxLinks (w.start p) p.allParts.dropLast d ∧
    w.tree.get? d = some .dir ∧ l = d ++ [n] := by
  constructor
  · intro h
    rw [slot] at h
    split at h
    · cases h
    · cases h
    · rename_i last hrefusal hlast
      split at h
      · cases h
      · rename_i d hwalk
        split at h
        · cases h
        · rename_i n hd
          split at h
          · cases h
          · rename_i hshort
            split at h
            · cases h
            · rename_i hslash
              cases h
              exact ⟨d, n, ⟨hrefusal, hlast, by simpa using hshort, by simpa using hslash⟩,
                FileTree.walks_of_walk hwalk, hd, rfl⟩
        · cases h
        · cases h
  · rintro ⟨d, n, hnames, hwalks, hd, rfl⟩
    simp [slot, hnames.refusal, hnames.last, FileTree.walk_of_walks hwalks, hd, hnames.short,
      hnames.no_slash]

theorem isFile_iff : w.isFile p = true ↔ ∃ f data, refusal? p = none ∧
    w.tree.Walks FileTree.maxLinks (w.start p) p.steps f ∧
    w.tree.get? f = some (.file data) := by
  simp only [isFile, find, reach, ← FileTree.walk_eq_ok_iff]
  cases refusal? p with
  | some e => simp
  | none =>
      cases w.tree.walk FileTree.maxLinks (w.start p) p.steps with
      | error e => simp
      | ok m =>
          cases hm : w.tree.get? m with
          | none => simp [hm]
          | some e => cases e <;> simp [hm]

theorem Names.steps_eq (h : Names p n) : p.steps = p.allParts.dropLast ++ [.name n] := by
  obtain ⟨parts, hparts⟩ := List.getLast?_eq_some_iff.1 h.last
  simp [Path.steps, h.no_slash, hparts]

theorem isFile_of_slot (h : w.slot p = .ok l) (hl : w.tree.get? l = some (.file data)) :
    w.isFile p = true := by
  obtain ⟨d, n, hnames, hwalks, hd, rfl⟩ := slot_eq_ok_iff.1 h
  refine isFile_iff.2 ⟨d ++ [n], data, hnames.refusal, ?_, hl⟩
  rw [hnames.steps_eq]
  exact hwalks.append hd fun k => .enter hd hnames.short hl (by simp) .done

/-- A path to a file names the file or a link to it. -/
theorem slot_cases_of_isFile (h : w.slot p = .ok l) (hfile : w.isFile p = true) :
    (∃ data, w.tree.get? l = some (.file data)) ∨
    ∃ target links f data, w.tree.get? l = some (.link target) ∧
      w.tree.Walks links (if target.isAbsolute then [] else l.dropLast) target.steps f ∧
      w.tree.get? f = some (.file data) := by
  obtain ⟨d, n, hnames, hwalks, hd, rfl⟩ := slot_eq_ok_iff.1 h
  obtain ⟨f, data, -, hf, hdata⟩ := isFile_iff.1 hfile
  rw [hnames.steps_eq] at hf
  obtain ⟨i, hlast⟩ := hwalks.exists_of_append hf
  -- The file is what the last part leads to: by itself, or over a link.
  rcases hlast.name_cases with ⟨_, hfd, hnone⟩ | ⟨target, j, hlink, hon⟩ | ⟨e, _, _, hon⟩
  · simp [← hfd, hdata] at hnone
  · refine .inr ⟨target, j, f, data, hlink, ?_, hdata⟩
    simpa using hon
  · cases hon
    exact .inl ⟨data, hdata⟩

theorem exists_entry_of_isFile (h : w.slot p = .ok l) (hfile : w.isFile p = true) :
    ∃ e, w.tree.get? l = some e := by
  rcases slot_cases_of_isFile h hfile with ⟨_, hl⟩ | ⟨_, _, _, _, hl, _⟩
  · exact ⟨_, hl⟩
  · exact ⟨_, hl⟩

theorem isFile_eq_false (h : w.slot p = .ok l)
    (hl : w.tree.get? l = none ∨ w.tree.get? l = some .dir) : w.isFile p = false := by
  cases hfile : w.isFile p with
  | false => rfl
  | true =>
      rcases slot_cases_of_isFile h hfile with ⟨_, hentry⟩ | ⟨_, _, _, _, hentry, _⟩
      · simp [hentry] at hl
      · simp [hentry] at hl

theorem impassable_of_isFile (h : w.slot p = .ok l) (hfile : w.isFile p = true) :
    w.tree.Impassable l := by
  rcases slot_cases_of_isFile h hfile with ⟨data, hl⟩ | ⟨target, links, f, data, hl, hf, hdata⟩
  · exact ⟨by simp [hl], by simp [hl]⟩
  · refine ⟨by simp [hl], fun target' htarget => ?_⟩
    have heq : target' = target := by simpa [hl] using htarget.symm
    subst heq
    exact ⟨links, f, hf, by simp [hdata]⟩

/-! ## Workspaces that paths cannot tell apart -/

/-- Paths lead over the same entries in both workspaces, but for some locations. -/
structure Alike (w v : Workspace) (but : List Location) : Prop where
  current : v.current = w.current
  get? : ∀ l, Spelled w.names l → v.tree.get? l = w.tree.get? l ∨ l ∈ but

namespace Alike

theorem refl (w : Workspace) : Alike w w but := ⟨rfl, fun _ _ => .inl rfl⟩

theorem mono {more : List Location} (h : Alike w v but) (hbut : but ⊆ more) : Alike w v more :=
  ⟨h.current, fun l hl => (h.get? l hl).imp_right fun hmem => hbut hmem⟩

theorem put (h : Alike w v but) (hl : l ∈ but ∨ ¬ Spelled w.names l) :
    Alike w (v.withTree (v.tree.put l e)) but := by
  refine ⟨h.current, fun m hm => ?_⟩
  by_cases hml : m = l
  · exact .inr (hml ▸ hl.resolve_right fun hnot => hnot (hml ▸ hm))
  · simpa [withTree, FileTree.get?_put, hml] using h.get? m hm

theorem erase (h : Alike w v but) (hl : l ∈ but ∨ ¬ Spelled w.names l) :
    Alike w (v.withTree (v.tree.erase l)) but := by
  refine ⟨h.current, fun m hm => ?_⟩
  by_cases hml : m = l
  · exact .inr (hml ▸ hl.resolve_right fun hnot => hnot (hml ▸ hm))
  · simpa [withTree, FileTree.get?_erase, hml] using h.get? m hm

theorem start_eq (h : Alike w v but) (p : Path) : v.start p = w.start p := by
  rw [start, start, h.current]

theorem walks {links : Nat} {parts : List Part} (h : Alike w v but)
    (hwalks : w.tree.Walks links (w.start p) parts d)
    (hparts : ∀ part ∈ parts, part.IsPlain) (hbut : ∀ x ∈ but, w.tree.Apart x d) :
    v.tree.Walks links (v.start p) parts d ∧ v.tree.get? d = w.tree.get? d := by
  have hstart := spelled_start w p
  constructor
  · rw [h.start_eq]
    exact hwalks.frame hstart hparts fun x hx => (h.get? x hx).imp_right (hbut x)
  · exact (h.get? d (hwalks.spelled hstart hparts)).resolve_right fun hd => (hbut d hd).ne rfl

/-- The relation works both ways, if what is left out is out of the way in the second
workspace. -/
theorem walks_back {links : Nat} {parts : List Part} (h : Alike w v but)
    (hwalks : v.tree.Walks links (v.start p) parts d)
    (hparts : ∀ part ∈ parts, part.IsPlain) (hbut : ∀ x ∈ but, v.tree.Apart x d) :
    w.tree.Walks links (w.start p) parts d ∧ w.tree.get? d = v.tree.get? d := by
  have hstart := spelled_start w p
  have hsame : ∀ x, Spelled w.names x → w.tree.get? x = v.tree.get? x ∨ v.tree.Apart x d :=
    fun x hx => (h.get? x hx).imp Eq.symm (hbut x)
  rw [h.start_eq] at hwalks
  exact ⟨hwalks.frame hstart hparts hsame,
    (hsame d (hwalks.spelled hstart hparts)).resolve_right fun hd => hd.ne rfl⟩

theorem directory (h : Alike w v but) (hbut : ∀ x ∈ but, w.tree.Impassable x)
    (hd : w.directory p = .ok d) : v.directory p = .ok d := by
  obtain ⟨hzero, hwalks, hdir⟩ := directory_eq_ok_iff.1 hd
  obtain ⟨hwalks', hget⟩ := h.walks hwalks (fun _ => Path.isPlain_of_mem_parentParts)
    fun x hx => (hbut x hx).apart hdir
  exact directory_eq_ok_iff.2 ⟨hzero, hwalks', hget.trans hdir⟩

theorem directory_back (h : Alike w v but) (hbut : ∀ x ∈ but, v.tree.Impassable x)
    (hd : v.directory p = .ok d) : w.directory p = .ok d := by
  obtain ⟨hzero, hwalks, hdir⟩ := directory_eq_ok_iff.1 hd
  obtain ⟨hwalks', hget⟩ := h.walks_back hwalks (fun _ => Path.isPlain_of_mem_parentParts)
    fun x hx => (hbut x hx).apart hdir
  exact directory_eq_ok_iff.2 ⟨hzero, hwalks', hget.trans hdir⟩

theorem slot (h : Alike w v but) (hbut : ∀ x ∈ but, w.tree.Impassable x)
    (hl : w.slot p = .ok l) : v.slot p = .ok l := by
  obtain ⟨d, n, hnames, hwalks, hdir, rfl⟩ := slot_eq_ok_iff.1 hl
  obtain ⟨hwalks', hget⟩ := h.walks hwalks
    (fun _ hpart => Path.isPlain_of_mem_allParts (List.dropLast_subset _ hpart))
    fun x hx => (hbut x hx).apart hdir
  exact slot_eq_ok_iff.2 ⟨d, n, hnames, hwalks', hget.trans hdir, rfl⟩

theorem slot_back (h : Alike w v but) (hbut : ∀ x ∈ but, v.tree.Impassable x)
    (hl : v.slot p = .ok l) : w.slot p = .ok l := by
  obtain ⟨d, n, hnames, hwalks, hdir, rfl⟩ := slot_eq_ok_iff.1 hl
  obtain ⟨hwalks', hget⟩ := h.walks_back hwalks
    (fun _ hpart => Path.isPlain_of_mem_allParts (List.dropLast_subset _ hpart))
    fun x hx => (hbut x hx).apart hdir
  exact slot_eq_ok_iff.2 ⟨d, n, hnames, hwalks', hget.trans hdir, rfl⟩

theorem isFile_eq (h : Alike w v []) (p : Path) : v.isFile p = w.isFile p := by
  rw [Bool.eq_iff_iff, isFile_iff, isFile_iff]
  constructor
  · rintro ⟨f, data, hrefusal, hwalks, hf⟩
    obtain ⟨hwalks', hget⟩ := h.walks_back hwalks (fun _ => Path.isPlain_of_mem_steps) (by simp)
    exact ⟨f, data, hrefusal, hwalks', hget.trans hf⟩
  · rintro ⟨f, data, hrefusal, hwalks, hf⟩
    obtain ⟨hwalks', hget⟩ := h.walks hwalks (fun _ => Path.isPlain_of_mem_steps) (by simp)
    exact ⟨f, data, hrefusal, hwalks', hget.trans hf⟩

end Alike

theorem spelled_of_slot (h : w.slot p = .ok l) : Spelled w.names l := by
  obtain ⟨d, n, hnames, hwalks, _, rfl⟩ := slot_eq_ok_iff.1 h
  have hd : Spelled w.names d := hwalks.spelled (spelled_start w p)
    fun _ hpart => Path.isPlain_of_mem_allParts (List.dropLast_subset _ hpart)
  exact hd.concat (Path.isPlain_of_mem_allParts (List.mem_of_getLast? hnames.last))

end Workspace

end PaletteBitmap

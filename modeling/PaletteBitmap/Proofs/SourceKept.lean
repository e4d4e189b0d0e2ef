import Mathlib
import PaletteBitmap.Proofs.Conversion

/-!
# What a conversion does to its source

A conversion puts its files in the places of two entries.  The check of the request keeps both
from being the entry that the source path names, and what a path is read over beyond that entry
is not looked at.  So the source is kept if it is reached without the entries that are replaced
(`runWith_source_kept`); a source path that names a link to the image is not.
-/

namespace PaletteBitmap

namespace FileTree

variable {t u : FileTree} {links : Nat} {l m x : Location} {parts rest : List Part} {n : String}
  {but : List Location}

/-! ## Walks around an entry -/

/-- Parts lead to something even if nothing stands at `x`. -/
def Bypasses (t : FileTree) (x l : Location) (parts : List Part) : Prop :=
  ∃ links m, Walks (t.erase x) links l parts m ∧ (t.erase x).get? m ≠ none

namespace Bypasses

theorem here (h : t.Bypasses x l (.here :: rest)) : t.Bypasses x l rest := by
  obtain ⟨links, m, hwalks, hm⟩ := h
  cases hwalks with
  | here _ hrest => exact ⟨links, m, hrest, hm⟩

theorem up (h : t.Bypasses x l (.up :: rest)) : t.Bypasses x l.dropLast rest := by
  obtain ⟨links, m, hwalks, hm⟩ := h
  cases hwalks with
  | up _ hrest => exact ⟨links, m, hrest, hm⟩

theorem eq_nil_of_start (h : t.Bypasses l l parts) : l = [] := by
  obtain ⟨links, m, hwalks, hm⟩ := h
  by_contra hnil
  have hgone : (t.erase l).get? l = none := by simp [get?_erase, hnil]
  -- A walk from where nothing stands gets nowhere.
  have hml : m = l := hwalks.eq_of_not_dir (by simp [hgone])
  exact hm (hml ▸ hgone)

theorem ne_next (h : t.Bypasses x l (.name n :: rest)) : l ++ [n] ≠ x := by
  obtain ⟨links, m, hwalks, hm⟩ := h
  rintro rfl
  have hgone : (t.erase (l ++ [n])).get? (l ++ [n]) = none := by simp [get?_erase]
  rcases hwalks.name_cases with ⟨-, hml, -⟩ | ⟨_, _, hlink, -⟩ | ⟨_, hsome, -, -⟩
  · exact hm (hml ▸ hgone)
  · simp [hgone] at hlink
  · simp [hgone] at hsome

theorem get?_next (h : t.Bypasses x l (.name n :: rest)) :
    (t.erase x).get? (l ++ [n]) = t.get? (l ++ [n]) := by
  simp [get?_erase, h.ne_next]

theorem follow {target : Path} (h : t.Bypasses x l (.name n :: rest))
    (hnext : t.get? (l ++ [n]) = some (.link target)) :
    t.Bypasses x (if target.isAbsolute then [] else l) (target.steps ++ rest) := by
  have hlink := h.get?_next.trans hnext
  obtain ⟨links, m, hwalks, hm⟩ := h
  rcases hwalks.name_cases with ⟨-, -, hnone⟩ | ⟨target', k, hlink', hon⟩ | ⟨e, hsome, he, -⟩
  · simp [hlink] at hnone
  · cases hlink.symm.trans hlink'
    exact ⟨k, m, hon, hm⟩
  · exact absurd (Option.some.inj (hsome.symm.trans hlink)) (he _)

theorem enter {e : Entry} (h : t.Bypasses x l (.name n :: rest))
    (hnext : t.get? (l ++ [n]) = some e) (he : ∀ target, e ≠ .link target) :
    t.Bypasses x (l ++ [n]) rest := by
  have hsome := h.get?_next.trans hnext
  obtain ⟨links, m, hwalks, hm⟩ := h
  rcases hwalks.name_cases with ⟨-, -, hnone⟩ | ⟨target, k, hlink, -⟩ | ⟨_, _, _, hon⟩
  · simp [hsome] at hnone
  · exact absurd (Option.some.inj (hsome.symm.trans hlink)) (he _)
  · exact ⟨links, m, hon, hm⟩

end Bypasses

section

variable {names : List String}
  (hsame : ∀ x, Spelled names x → u.get? x = t.get? x ∨ x ∈ but)
include hsame

theorem get?_eq_of_bypasses (hl : Spelled names l) (hmiss : ∀ x ∈ but, t.Bypasses x l parts) :
    u.get? l = t.get? l := by
  rcases hsame l hl with heq | hmem
  · exact heq
  -- Of the entries left out, a walk can begin at the root only, and that is always there.
  · have hnil : l = [] := (hmiss l hmem).eq_nil_of_start
    simp [hnil, get?]

theorem get?_next_eq_of_bypasses (hl : Spelled names l) (hn : (Part.name n).IsPlain)
    (hmiss : ∀ x ∈ but, t.Bypasses x l (.name n :: rest)) :
    u.get? (l ++ [n]) = t.get? (l ++ [n]) := by
  rcases hsame (l ++ [n]) (hl.concat hn) with heq | hmem
  · exact heq
  · exact absurd rfl (hmiss _ hmem).ne_next

/-- A walk that can do without some entries goes the same way where others stand there. -/
theorem Walks.of_bypasses (h : Walks t links l parts m) (hl : Spelled names l)
    (hparts : ∀ part ∈ parts, part.IsPlain) (hmiss : ∀ x ∈ but, t.Bypasses x l parts) :
    Walks u links l parts m ∧ u.get? m = t.get? m := by
  induction h with
  | done => exact ⟨.done, get?_eq_of_bypasses hsame hl hmiss⟩
  | here hdir _ ih =>
      have hhere := (get?_eq_of_bypasses hsame hl hmiss).trans hdir
      obtain ⟨-, hrest⟩ := List.forall_mem_cons.1 hparts
      obtain ⟨hon, hend⟩ := ih hl hrest fun x hx => (hmiss x hx).here
      exact ⟨.here hhere hon, hend⟩
  | up hdir _ ih =>
      have hhere := (get?_eq_of_bypasses hsame hl hmiss).trans hdir
      obtain ⟨-, hrest⟩ := List.forall_mem_cons.1 hparts
      obtain ⟨hon, hend⟩ := ih hl.dropLast hrest fun x hx => (hmiss x hx).up
      exact ⟨.up hhere hon, hend⟩
  | new hdir hn hnone =>
      have hhere := (get?_eq_of_bypasses hsame hl hmiss).trans hdir
      obtain ⟨hplain, -⟩ := List.forall_mem_cons.1 hparts
      have hthere := get?_next_eq_of_bypasses hsame hl hplain hmiss
      exact ⟨.new hhere hn (hthere.trans hnone), hthere⟩
  | @follow _ _ _ _ _ target hdir hn hlink _ ih =>
      have hhere := (get?_eq_of_bypasses hsame hl hmiss).trans hdir
      obtain ⟨hplain, hrest⟩ := List.forall_mem_cons.1 hparts
      have hthere := get?_next_eq_of_bypasses hsame hl hplain hmiss
      -- The way on is that of the link in both trees, as the link is the same.
      obtain ⟨hon, hend⟩ := ih (hl.base target) (Path.isPlain_of_mem_steps_append hrest)
        fun x hx => (hmiss x hx).follow hlink
      exact ⟨.follow hhere hn (hthere.trans hlink) hon, hend⟩
  | enter hdir hn hsome he _ ih =>
      have hhere := (get?_eq_of_bypasses hsame hl hmiss).trans hdir
      obtain ⟨hplain, hrest⟩ := List.forall_mem_cons.1 hparts
      have hthere := get?_next_eq_of_bypasses hsame hl hplain hmiss
      obtain ⟨hon, hend⟩ := ih (hl.concat hplain) hrest fun x hx => (hmiss x hx).enter hsome he
      exact ⟨.enter hhere hn (hthere.trans hsome) he hon, hend⟩

end

end FileTree

namespace Workspace

variable {w v : Workspace} {p : Path} {l : Location} {data : List UInt8} {but : List Location}

/-! ## Reading around an entry -/

theorem bypasses_of_read (h : (w.discard l).read p = .ok data) :
    w.tree.Bypasses l (w.start p) p.steps := by
  obtain ⟨f, -, hwalks, hf⟩ := read_eq_ok_iff.1 h
  exact ⟨_, f, hwalks, by simpa [discard, withTree] using ne_of_eq_of_ne hf (by simp)⟩

/-- What is read without some entries is read where others stand in their places. -/
theorem Alike.read (h : Alike w v but) (hread : w.read p = .ok data)
    (hmiss : ∀ x ∈ but, (w.discard x).read p = .ok data) : v.read p = .ok data := by
  obtain ⟨f, hrefusal, hwalks, hf⟩ := read_eq_ok_iff.1 hread
  obtain ⟨hwalks', hget⟩ := hwalks.of_bypasses h.get? (spelled_start w p)
    (fun _ => Path.isPlain_of_mem_steps) fun x hx => bypasses_of_read (hmiss x hx)
  exact read_eq_ok_iff.2 ⟨f, hrefusal, h.start_eq p ▸ hwalks', hget.trans hf⟩

theorem get?_of_read (hslot : w.slot p = .ok l) (hlink : w.NamesNoLink p)
    (hread : w.read p = .ok data) : w.tree.get? l = some (.file data) := by
  have hfile : w.isFile p = true := by
    obtain ⟨f, hrefusal, hwalks, hf⟩ := read_eq_ok_iff.1 hread
    exact isFile_iff.2 ⟨f, data, hrefusal, hwalks, hf⟩
  rcases slot_cases_of_isFile hslot hfile with ⟨found, hl⟩ | ⟨target, _, _, _, hl, _⟩
  · cases hread.symm.trans (read_of_slot hslot hl)
    exact hl
  · exact absurd hl (hlink l target hslot)

/-- The same files at all locations, and the same directory to follow paths from. -/
structure Same (w v : Workspace) : Prop where
  current : v.current = w.current
  get? : ∀ l, v.tree.get? l = w.tree.get? l

theorem Same.alike (h : Same w v) : Alike w v [] := ⟨h.current, fun l _ => .inl (h.get? l)⟩

theorem Same.discard (h : Same w v) (l : Location) : Same (w.discard l) (v.discard l) where
  current := h.current
  get? := by
    intro m
    simp [Workspace.discard, withTree, FileTree.get?_erase, h.get? m]

theorem Same.read (h : Same w v) (hread : w.read p = .ok data) : v.read p = .ok data :=
  h.alike.read hread (by simp)

theorem Same.mem_replaceable {out : OutputPair} (h : Same w v) (hl : l ∈ out.replaceable v) :
    l ∈ out.replaceable w := by
  obtain ⟨⟨q, hq, hslot⟩, hdir⟩ := OutputPair.mem_replaceable.1 hl
  rw [h.get?] at hdir
  exact OutputPair.mem_replaceable.2 ⟨⟨q, hq, h.alike.slot_back (by simp) hslot⟩, hdir⟩

end Workspace

/-! ## The source of a conversion -/

open Workspace

/-- The source is read without the entries that may be replaced, but for the one that its own
path names. -/
def ConversionParams.SourceClear (params : ConversionParams) (w : Workspace) : Prop :=
  ∀ l ∈ params.outputs.replaceable w, w.slot params.paths.source ≠ .ok l →
    ∀ data, w.read params.paths.source = .ok data →
      (w.discard l).read params.paths.source = .ok data

/-- The check of the request is all that is needed where none of the paths names a link. -/
theorem ConversionParams.sourceClear_of_no_link {params : ConversionParams} {w : Workspace}
    {k : Location} (hslot : w.slot params.paths.source = .ok k)
    (hnone : ∀ p ∈ [params.paths.source, params.paths.image, params.paths.palette],
      w.NamesNoLink p) : params.SourceClear w := by
  intro l hl hne data hread
  obtain ⟨⟨out, hout, hl⟩, hdir⟩ := OutputPair.mem_replaceable.1 hl
  have himpassable : w.tree.Impassable l :=
    (hnone out (List.mem_cons_of_mem _ hout)).impassable hl hdir
  have halike : Alike w (w.discard l) [l] := (Alike.refl w).erase (.inl (by simp))
  -- The directory of the source is found, and what is erased is not the source.
  have hkept : (w.discard l).slot params.paths.source = .ok k :=
    halike.slot (by simpa using himpassable) hslot
  have hfile : w.tree.get? k = some (.file data) :=
    get?_of_read hslot (hnone _ List.mem_cons_self) hread
  have hkl : k ≠ l := fun heq => hne (heq ▸ hslot)
  exact read_of_slot hkept (by simpa [Workspace.discard, withTree, FileTree.get?_erase, hkl])

namespace Pipeline

open OutputPair

variable {decode : Decoder} {p : Pipeline} {runner : Runner} {w : Workspace}
  {params : ConversionParams}

/-- The encoder leaves no trace among the files. -/
def Quiet (p : Pipeline) (runner : Runner) (w : Workspace) : Prop :=
  ∀ image s, Same w (p.encode runner w image s).2

theorem quiet_builtIn (o : ConversionOptions) (runner : Runner) (w : Workspace) :
    Quiet ⟨o, .builtIn⟩ runner w :=
  fun _ _ => ⟨rfl, fun _ => rfl⟩

theorem Prepared.exists_read {s : EncodeSettings} {image : Raster}
    (h : Prepared decode w params s image) : ∃ data, w.read params.paths.source = .ok data := by
  obtain ⟨source, hsource, -⟩ := h.size
  rw [Source.ofFileWith] at hsource
  split at hsource
  · cases hsource
  · rename_i data hread
    exact ⟨data, hread⟩

theorem read_commit {v : Workspace} {data : List UInt8} (image palette : List UInt8)
    (hcheck : params.paths.check w = .ok ()) (hclear : params.SourceClear w) (hsame : Same w v)
    (hread : w.read params.paths.source = .ok data) :
    (commit v params.outputs image palette).2.read params.paths.source = .ok data := by
  refine (commit_alike v params.outputs image palette).read (hsame.read hread) fun l hl => ?_
  have hl' := hsame.mem_replaceable hl
  obtain ⟨⟨out, hout, hslot⟩, -⟩ := mem_replaceable.1 hl'
  -- The check has ruled out that this is the entry of the source itself.
  have hne := (Endpoints.slot_ne_of_check hcheck).2 out hout l hslot
  exact (hsame.discard l).read (hclear l hl' hne data hread)

/-- A conversion keeps its source, whatever becomes of it, if the source is reached without the
entries that are replaced. -/
theorem runWith_source_kept (decode : Decoder) (resizer : Resample.Resizer) (p : Pipeline)
    (runner : Runner) (w : Workspace) (params : ConversionParams) (hquiet : p.Quiet runner w)
    (hclear : params.SourceClear w) :
    (p.runWith decode resizer runner w params).2.read params.paths.source =
      w.read params.paths.source := by
  rcases runWith_cases decode resizer p runner w params with
    ⟨e, hrun⟩ | ⟨s, image, hprepared, hrun⟩
  · rw [hrun]
  · obtain ⟨data, hread⟩ := hprepared.exists_read
    have hsame := hquiet image s
    rw [hrun, hread]
    rcases finish_cases p runner w image s params.outputs with
      ⟨e, hfinish⟩ | ⟨pair, -, ⟨e, w₁, hcommit, hfinish⟩ | ⟨w₁, hcommit, hfinish⟩⟩
    · rw [hfinish]
      exact hsame.read hread
    all_goals
      have hkept := read_commit pair.image pair.palette hprepared.check hclear hsame hread
      rw [hcommit] at hkept
      rw [hfinish]
      exact hkept

theorem dot_source_kept :
    Quiet ⟨{ pad := true }, .builtIn⟩ idle dotted ∧ (dotParams ⟨"i"⟩).SourceClear dotted ∧
      (runWith Source.decode Resample.lanczos ⟨{ pad := true }, .builtIn⟩ idle dotted
        (dotParams ⟨"i"⟩)).2.read ⟨"s"⟩ = .ok dotFile := by
  have hread : dotted.read ⟨"s"⟩ = .ok dotFile := by cbv
  have hclear : (dotParams ⟨"i"⟩).SourceClear dotted := by
    have hplaces : (dotParams ⟨"i"⟩).outputs.replaceable dotted = [["i"], ["p"]] := by cbv
    intro l hl _ data hdata
    cases hread.symm.trans hdata
    rw [hplaces] at hl
    rcases List.mem_pair.1 hl with rfl | rfl
    · cbv
    · cbv
  have hkept := runWith_source_kept Source.decode Resample.lanczos ⟨{ pad := true }, .builtIn⟩ idle
    dotted (dotParams ⟨"i"⟩) (quiet_builtIn _ _ _) hclear
  exact ⟨quiet_builtIn _ _ _, hclear, hkept.trans hread⟩

/-- A source path that names a link to the image passes the check, and then the image has taken
the place of the source. -/
theorem linked_source_lost :
    dotted.read ⟨"s"⟩ = .ok dotFile ∧
      (runWith Source.decode Resample.lanczos ⟨{ pad := true }, .builtIn⟩ idle dotted
        (dotParams ⟨"a"⟩)).1 = .ok ⟨1, 1, .one, 2, 1, 8, (dotParams ⟨"a"⟩).outputs⟩ ∧
      (runWith Source.decode Resample.lanczos ⟨{ pad := true }, .builtIn⟩ idle dotted
        (dotParams ⟨"a"⟩)).2.read ⟨"s"⟩ = .ok [0] := by
  have hvalid : (dotParams ⟨"a"⟩).validate dotted =
      .ok ⟨none, ⟨.one, 0, by decide⟩, (dotParams ⟨"a"⟩).paths⟩ := by cbv
  have hread : dotted.read (dotParams ⟨"a"⟩).paths.source = .ok dotFile := by cbv
  refine ⟨hread, ?_, ?_⟩
  all_goals
    simp only [runWith, hvalid, prepareWith, Source.ofFileWith, hread, decode_dotFile]
    cbv

end Pipeline

end PaletteBitmap

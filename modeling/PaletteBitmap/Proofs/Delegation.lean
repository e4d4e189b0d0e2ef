import Mathlib
import PaletteBitmap.CommandLine.Run
import PaletteBitmap.Proofs.ArgumentList
import PaletteBitmap.Proofs.LocationPath
import PaletteBitmap.Proofs.PairCheck

/-!
# Encoding by the program itself

An external encoder may be this very program, whose command `encode` does what such a program has
to do.  The image then takes a long way round: it is written to a file, its settings become
arguments, the program reads both again, encodes with options of its own, and leaves two files
that are checked.  Nothing changes on this way (`ExternalEncoder.encode_asProgram`).

Taken for granted are three things: that there is a place for temporary files (`Staging`), that a
picture is read as it was written (`Raster.Preserved`), and that the configuration found by the
program gives the options that are compared with.
-/

namespace PaletteBitmap

/-! ## The program as a program that is run -/

/-- This program, as one that is run by others: its reply becomes an exit status and a line on the
error stream. -/
def CommandLine.asProgram (runner : Runner) (environment : Option Path) : Runner := fun w i =>
  let (reply, w') := run runner w environment i.args
  let complaint := (reply.complaint.map (· ++ "\n")).getD ""
  (.ok ⟨.code reply.exit, complaint.toUTF8.data.toList⟩, w')

/-- The picture file that an image is staged as. -/
def Raster.picture (image : Raster) : List UInt8 :=
  (Png.ofPixels .rgba image.width image.height image.pixels).encode

/-- An image is read from its picture file as it was. -/
def Raster.Preserved (image : Raster) : Prop :=
  ∃ source, Source.decode image.picture = .ok source ∧ Raster.ofSource source = image

theorem EncodeSettings.ofRaw_self (s : EncodeSettings) : ofRaw s.depth.bits s.count = .ok s := by
  simp only [ofRaw, BitDepth.ofBits?_bits, dif_pos s.count_le]

/-! ## Temporary directories -/

namespace FileTree

/-- No name on the way of a walk that arrives is too long. -/
theorem Walks.short {t : FileTree} {links : Nat} {l m : Location} {parts : List Part}
    (h : t.Walks links l parts m) {n : String} (hn : .name n ∈ parts) :
    (Part.name n).isTooLong = false := by
  induction h with
  | done => cases hn
  | here _ _ ih | up _ _ ih => exact ih (by simpa using hn)
  | new _ hshort =>
      cases List.mem_singleton.1 hn
      exact hshort
  | follow _ hshort _ _ ih =>
      rcases List.mem_cons.1 hn with heq | hrest
      · cases heq
        exact hshort
      · exact ih (List.mem_append_right _ hrest)
  | enter _ hshort _ _ _ ih =>
      rcases List.mem_cons.1 hn with heq | hrest
      · cases heq
        exact hshort
      · exact ih hrest

theorem open_pair {t : FileTree} {m n : String} (hm : t.get? [m] = some .dir)
    (hn : t.get? [m, n] = some .dir) : t.Open [] [m, n] := by
  intro k hk
  have hcases : k = 0 ∨ k = 1 ∨ k = 2 := by
    simp only [List.length_cons, List.length_nil] at hk
    omega
  rcases hcases with rfl | rfl | rfl
  · rfl
  · exact hm
  · exact hn

end FileTree

/-- A temporary directory is made among the others, under a name of its own. -/
theorem Workspace.exists_of_makeTemporary {w u : Workspace} {dir : Location}
    (h : w.makeTemporary = .ok (u, dir)) : ∃ n, IsName n ∧ dir = ["tmp", n] ∧
      w.tree.get? ["tmp"] = some .dir ∧ u = w.withTree (w.tree.put dir .dir) := by
  rw [makeTemporary] at h
  split at h
  · cases h
  · rename_i htmp
    cases h
    refine ⟨_, ?_, rfl, htmp, rfl⟩
    constructor <;> simp [List.replicate_succ, String.ext_iff]
  · cases h

namespace ExternalEncoder

/-- The image is staged in a directory that was made for it: the directory is new, so nothing else
stands in it, and the picture is found by the path that the program is told. -/
structure Staging (w v : Workspace) (dir : Location) (image : Raster) : Prop where
  made : ∃ u, w.makeTemporary = .ok (u, dir) ∧
    v = u.withTree (u.tree.put (dir ++ [inputName]) (.file image.picture))
  empty : ∀ n, n ≠ inputName → v.tree.get? (dir ++ [n]) = none
  input : v.read (files dir).input = .ok image.picture

namespace Staging

variable {w v : Workspace} {dir : Location} {image : Raster} {n : String}

theorem isName (h : Staging w v dir image) : ∀ n ∈ dir, IsName n := by
  obtain ⟨u, hmade, -⟩ := h.made
  obtain ⟨n, hn, rfl, -, -⟩ := Workspace.exists_of_makeTemporary hmade
  have htmp : IsName "tmp" := by constructor <;> decide
  simpa using ⟨htmp, hn⟩

theorem isOpen (h : Staging w v dir image) : v.tree.Open [] dir := by
  obtain ⟨u, hmade, rfl⟩ := h.made
  obtain ⟨n, -, rfl, htmp, rfl⟩ := Workspace.exists_of_makeTemporary hmade
  refine FileTree.open_pair ?_ ?_
  · simpa [Workspace.withTree, FileTree.get?_put] using htmp
  · simp [Workspace.withTree, FileTree.get?_put]

theorem isName_append (h : Staging w v dir image) (hn : IsName n) :
    ∀ m ∈ dir ++ [n], IsName m := by
  intro m hm
  rcases List.mem_append.1 hm with hdir | hlast
  · exact h.isName m hdir
  · exact List.mem_singleton.1 hlast ▸ hn

/-- A name that is no longer than that of the picture names an entry of the directory. -/
theorem slot (h : Staging w v dir image) (hn : IsName n)
    (hle : n.utf8ByteSize ≤ inputName.utf8ByteSize) :
    v.slot (Location.path (dir ++ [n])) = .ok (dir ++ [n]) := by
  have hinput : IsName inputName := by constructor <;> decide
  obtain ⟨f, hrefusal, hwalks, -⟩ := Workspace.read_eq_ok_iff.1 h.input
  have hlong : (files dir).input.isTooLong = false := Workspace.isTooLong_of_refusal hrefusal
  -- The picture was found over the names of the directory, so none of them is too long.
  have hsteps : (files dir).input.steps = (dir ++ [inputName]).map .name := by
    rw [← Location.allParts_path (h.isName_append hinput) (by simp), Path.steps, files,
      Location.endsInSlash_path hinput]
    rfl
  have hshort : ∀ m ∈ dir ++ [n], (Part.name m).isTooLong = false := by
    intro m hm
    rcases List.mem_append.1 hm with hdir | hlast
    · exact hwalks.short (by simp [hsteps, hdir])
    · have hsize : inputName.utf8ByteSize = 13 := by decide
      rw [List.mem_singleton.1 hlast, Part.isTooLong, Part.maxNameBytes, decide_eq_false_iff_not]
      omega
  exact Workspace.slot_path h.isOpen (h.isName_append hn) hshort
    (Location.isTooLong_path_of_le hlong hle)

theorem slot_files (h : Staging w v dir image) :
    v.slot (files dir).input = .ok (dir ++ [inputName]) ∧
      v.slot (files dir).image = .ok (dir ++ [imageName]) ∧
      v.slot (files dir).palette = .ok (dir ++ [paletteName]) := by
  refine ⟨h.slot ?_ (by decide), h.slot ?_ (by decide), h.slot ?_ (by decide)⟩
  all_goals constructor <;> decide

/-- The three paths pass the check of a request. -/
theorem check (h : Staging w v dir image) :
    Endpoints.check v ⟨(files dir).input, (files dir).image, (files dir).palette⟩ = .ok () := by
  obtain ⟨hinput, himage, hpalette⟩ := h.slot_files
  have hne : ∀ {m n : String}, m ≠ n → dir ++ [m] ≠ dir ++ [n] := fun hmn heq =>
    hmn (by simpa using heq)
  exact Endpoints.check_of_slot_ne himage hpalette hinput (hne (by decide)) (hne (by decide))
    (hne (by decide))

/-- Both files can be written, and are found afterwards. -/
theorem exists_commit (h : Staging w v dir image) (a b : List UInt8) : ∃ v',
    OutputPair.commit v ⟨(files dir).image, (files dir).palette⟩ a b = (.ok (), v') ∧
      collect v' (files dir) = .ok (a, b) := by
  obtain ⟨-, himage, hpalette⟩ := h.slot_files
  have hne : dir ++ [imageName] ≠ dir ++ [paletteName] := fun heq =>
    absurd heq (by simp [imageName, paletteName])
  obtain ⟨v', hcommit, hdelivered⟩ := OutputPair.commit_of_none
    ⟨(files dir).image, (files dir).palette⟩ himage hpalette hne (h.empty imageName (by decide))
    (h.empty paletteName (by decide)) a b
  refine ⟨v', hcommit, ?_⟩
  have hfirst : v'.read (files dir).image = .ok a := hdelivered.image
  have hsecond : v'.read (files dir).palette = .ok b := hdelivered.palette
  simp only [collect, hfirst, hsecond]
  rfl

variable {o : ConversionOptions} {s : EncodeSettings} {runner : Runner}

/-- What the command `encode` is asked to do is to encode the very image. -/
theorem run_eq_finish (h : Staging w v dir image) (hkept : image.Preserved) :
    (Pipeline.mk o .builtIn).run runner v ⟨none, s.depth.bits, s.count,
        ⟨(files dir).input, (files dir).image, (files dir).palette⟩⟩ =
      (Pipeline.mk o .builtIn).finish runner v image s
        ⟨(files dir).image, (files dir).palette⟩ := by
  obtain ⟨source, hdecode, hsource⟩ := hkept
  have hvalidate : ConversionParams.validate v ⟨none, s.depth.bits, s.count,
      ⟨(files dir).input, (files dir).image, (files dir).palette⟩⟩ =
        .ok ⟨none, s, ⟨(files dir).input, (files dir).image, (files dir).palette⟩⟩ := by
    simp only [ConversionParams.validate, ConversionParams.checkSize, EncodeSettings.ofRaw_self,
      h.check]
  have hprepare : (Pipeline.mk o .builtIn).prepareWith Source.decode Resample.lanczos v
      ⟨none, s, ⟨(files dir).input, (files dir).image, (files dir).palette⟩⟩ = .ok image := by
    simp only [Pipeline.prepareWith, Source.ofFileWith, h.input, hdecode, Pipeline.canonical,
      hsource]
  simp only [Pipeline.run, Pipeline.runWith, hvalidate, hprepare]

end Staging

end ExternalEncoder

/-! ## Main statement -/

namespace CommandLine

variable {v : Workspace} {environment config : Option Path}
  {args : List String} {a : EncodeArguments} {c : Config} {origin : Config.Origin}
  {o : ConversionOptions}

/-- The command `encode` is a conversion at the size of the source by the built-in encoder. -/
theorem run_encode (runner : Runner) (hread : Line.read args = .ok ⟨config, .encode a⟩)
    (hload : Config.load v config environment = .ok (c, origin)) (hoptions : c.options = .ok o) :
    run runner v environment args =
      match (Pipeline.mk o .builtIn).run runner v a.params with
      | (.error e, v') => (.failure e.message, v')
      | (.ok _, v') => ({}, v') := by
  cases hrun : (Pipeline.mk o .builtIn).run runner v a.params with
  | mk result v' => cases result <;> simp only [run, hread, hload, runEncode, hoptions, hrun]

end CommandLine

namespace ExternalEncoder

open CommandLine

variable {e : ExternalEncoder} {o : ConversionOptions} {s : EncodeSettings} {w v : Workspace}
  {dir : Location} {image : Raster} {pair : EncodedPair}

/-- What an encoder yields is concluded from a run where the image is staged. -/
theorem Staging.encode_eq (h : Staging w v dir image) (run : Runner) :
    (e.encode run w image s).1 = e.conclude (run v (e.invocation s (files dir))).2 image s
      (files dir) (run v (e.invocation s (files dir))).1 := by
  obtain ⟨u, hmade, rfl⟩ := h.made
  simp only [encode, hmade]
  rfl

theorem conclude_of_failure {outcome : Outcome} (hfailure : outcome.status.success = false)
    (v : Workspace) (f : Files) : e.conclude v image s f (.ok outcome) ≠ .ok pair := by
  simp [conclude, hfailure]

theorem conclude_of_success {outcome : Outcome} {f : Files}
    (hsuccess : outcome.status.success = true)
    (hcollect : collect v f = .ok (pair.image, pair.palette))
    (hcheck : e.form.check image.width image.height s pair.image pair.palette = .ok pair.entries) :
    e.conclude v image s f (.ok outcome) = .ok pair := by
  simp only [conclude, hsuccess, if_true, hcollect, hcheck]

/-- An encoder that is this program itself, set up by a configuration of the same options, yields
what the built-in encoder yields, and fails where it fails.  The program reads its arguments as the
settings and the three paths that they were made of. -/
theorem encode_asProgram (e : ExternalEncoder) (o : ConversionOptions) (s : EncodeSettings)
    {config environment : Option Path} (hargs : Chooses e.args config) (hform : e.form = o.form) :
    EncodeSettings.ofRaw s.depth.bits s.count = .ok s ∧
    (∀ dir, Line.read (e.invocation s (files dir)).args = .ok ⟨config, .encode
      ⟨s.depth.bits, s.count, (files dir).input, (files dir).image, (files dir).palette⟩⟩) ∧
    ∀ (runner : Runner) (w v : Workspace) (dir : Location) (image : Raster) (c : Config)
      (origin : Config.Origin), Staging w v dir image → image.Preserved →
      Config.load v config environment = .ok (c, origin) → c.options = .ok o →
      ∀ pair, (e.encode (asProgram runner environment) w image s).1 = .ok pair ↔
        o.encode image s = .ok pair := by
  have hread : ∀ dir, Line.read (e.invocation s (files dir)).args = .ok ⟨config, .encode
      ⟨s.depth.bits, s.count, (files dir).input, (files dir).image, (files dir).palette⟩⟩ :=
    fun dir => hargs.read_invocation s (Location.isAbsolute_path _) (Location.isAbsolute_path _)
      (Location.isAbsolute_path _)
  refine ⟨s.ofRaw_self, hread, ?_⟩
  intro runner w v dir image c origin hstaging hkept hload hoptions pair
  have hrun := run_encode runner (hread dir) hload hoptions
  rw [EncodeArguments.params, hstaging.run_eq_finish hkept] at hrun
  rw [hstaging.encode_eq]
  cases hencode : o.encode image s with
  | error cause =>
      -- The program fails as the encoder in it does.
      have hfinish : (Pipeline.mk o .builtIn).finish runner v image s
          ⟨(files dir).image, (files dir).palette⟩ = (.error cause, v) := by
        simp only [Pipeline.finish, Pipeline.encode, hencode]
      rw [hfinish] at hrun
      refine iff_of_false ?_ (by simp)
      simp only [asProgram, hrun]
      exact conclude_of_failure rfl _ _
  | ok found =>
      -- What it has written is found, and passes the check since the built-in encoder made it.
      obtain ⟨v', hcommit, hcollect⟩ := hstaging.exists_commit found.image found.palette
      have hfinish : (Pipeline.mk o .builtIn).finish runner v image s
          ⟨(files dir).image, (files dir).palette⟩ = (.ok ⟨image.width, image.height, s.depth,
            found.entries, found.image.length, found.palette.length,
            ⟨(files dir).image, (files dir).palette⟩⟩, v') := by
        simp only [Pipeline.finish, Pipeline.encode, hencode, hcommit]
      have hcheck : e.form.check image.width image.height s found.image found.palette =
          .ok found.entries := by
        rw [hform]
        exact (ConversionOptions.admits_of_encode hencode).check_eq_ok
      rw [hfinish] at hrun
      simp only [asProgram, hrun]
      rw [conclude_of_success rfl hcollect hcheck]

/-- The program, asked to encode. -/
def itself : ExternalEncoder := ⟨⟨"bgpack"⟩, ["encode"], {}⟩

/-- A red pixel beside one that cannot be seen. -/
def twoColors : Raster where
  width := 2
  height := 1
  pixels := [⟨255, 0, 0, 255⟩, ⟨0, 255, 0, 0⟩]
  width_pos := Nat.two_pos
  height_pos := Nat.one_pos
  length_pixels := by decide

theorem preserved_twoColors : twoColors.Preserved :=
  ⟨⟨2, 1, [255, 0, 0, 255, 0, 255, 0, 0], Nat.two_pos, Nat.one_pos, by decide⟩,
    by decide +kernel, rfl⟩

def emptyDesk : Workspace := ⟨⟨[(["tmp"], .dir)]⟩, []⟩

def stagedDesk (image : List UInt8) : Workspace :=
  ⟨⟨[(["tmp", ".~", "canonical.png"], .file image), (["tmp", ".~"], .dir), (["tmp"], .dir)]⟩, []⟩

theorem read_stagedDesk (image : List UInt8) :
    (stagedDesk image).read (files ["tmp", ".~"]).input = .ok image := by
  have hopen : (stagedDesk image).tree.Open [] ["tmp", ".~"] := FileTree.open_pair rfl rfl
  have hnames : ∀ n ∈ ["tmp", ".~"] ++ [inputName], IsName n := by
    simp only [inputName, List.cons_append, List.nil_append, List.forall_mem_cons]
    refine ⟨?_, ?_, ?_, by simp⟩ <;> constructor <;> decide
  exact Workspace.read_of_slot (Workspace.slot_path hopen hnames (by decide) (by decide)) rfl

theorem staging_emptyDesk : Staging emptyDesk (stagedDesk twoColors.picture) ["tmp", ".~"]
    twoColors where
  made := ⟨⟨⟨[(["tmp", ".~"], .dir), (["tmp"], .dir)]⟩, []⟩, by cbv, rfl⟩
  empty n hn := by
    have hlast : (n == "canonical.png") = false := beq_eq_false_iff_ne.2 hn
    simp [FileTree.get?, stagedDesk, List.lookup_cons, hlast]
  input := read_stagedDesk _

/-- The program is run to reduce two colors to one bit. -/
theorem twoColors_delegated : Chooses itself.args none ∧ itself.form = ({} : ConversionOptions).form ∧
    ∀ runner, (itself.encode (asProgram runner none) emptyDesk twoColors ⟨.one, 0, by decide⟩).1 =
      .ok ⟨[2], [255, 0, 0, 255, 0, 255, 0, 0], 2⟩ := by
  have hargs : Chooses itself.args none := by
    refine ⟨[], [], {}, {}, rfl, by decide, ?_, ?_, rfl, rfl, rfl, rfl⟩
    all_goals rw [Grammar.read, Grammar.readFrom]
  have hload : Config.load (stagedDesk twoColors.picture) none none = .ok ({}, .builtIn) := rfl
  have hencode : ConversionOptions.encode {} twoColors ⟨.one, 0, by decide⟩ =
      .ok ⟨[2], [255, 0, 0, 255, 0, 255, 0, 0], 2⟩ := by cbv
  exact ⟨hargs, rfl, fun runner => ((encode_asProgram itself {} _ hargs rfl).2.2 runner _ _ _ _ _ _
    staging_emptyDesk preserved_twoColors hload (by decide +kernel) _).2 hencode⟩

end ExternalEncoder

end PaletteBitmap

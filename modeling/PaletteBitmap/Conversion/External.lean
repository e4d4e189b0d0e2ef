import PaletteBitmap.Conversion.Pair
import PaletteBitmap.File.Workspace
import PaletteBitmap.Png.Writer
import PaletteBitmap.Text.Lossy

/-!
# External encoders

An encoder may be a program of its own.  It is run with its own arguments, then
`-b BITS [-q COUNT] INPUT IMAGE PALETTE`, where the three files lie in a directory made for
this run and removed after it.  What it has written is checked before it is used.

How programs are run is a parameter, `Runner`.
-/

namespace PaletteBitmap

/-! ## Running programs -/

/-- A program and its arguments. -/
structure Invocation where
  program : Path
  args : List String
  deriving DecidableEq, Repr

/-- How a program ended: by itself with a number, or by a signal. -/
inductive ExitStatus where
  | code (n : Nat)
  | signal (n : Nat)
  deriving DecidableEq, Repr

namespace ExitStatus

def success (s : ExitStatus) : Bool := s == code 0

def signalNames : List (Nat × String) :=
  [(1, "HUP"), (2, "INT"), (3, "QUIT"), (4, "ILL"), (5, "TRAP"), (6, "ABRT"), (7, "BUS"),
    (8, "FPE"), (9, "KILL"), (10, "USR1"), (11, "SEGV"), (12, "USR2"), (13, "PIPE"),
    (14, "ALRM"), (15, "TERM"), (16, "STKFLT"), (17, "CHLD"), (18, "CONT"), (19, "STOP"),
    (20, "TSTP"), (21, "TTIN"), (22, "TTOU"), (23, "URG"), (24, "XCPU"), (25, "XFSZ"),
    (26, "VTALRM"), (27, "PROF"), (28, "WINCH"), (29, "IO"), (30, "PWR"), (31, "SYS")]

/-- The signals that end no program: a child has ended, go on, urgent data, a new size of the
window. -/
def harmlessSignals : List Nat := [17, 18, 23, 28]

def text : ExitStatus → String
  | code n => s!"exit status: {n}"
  | signal n =>
    match signalNames.lookup n with
    | some name => s!"signal: {n} (SIG{name})"
    | none => s!"signal: {n}"

end ExitStatus

/-- How a program ended and what it wrote to its error stream. -/
structure Outcome where
  status : ExitStatus
  complaints : List UInt8
  deriving DecidableEq, Repr

/-- A way of running programs in a workspace. -/
abbrev Runner := Workspace → Invocation → Except FileError Outcome × Workspace

/-! ## Encoders -/

/-- A program that encodes, and the form in which it writes. -/
structure ExternalEncoder where
  program : Path
  /-- The arguments before those of every encoder. -/
  args : List String := []
  form : PairForm := {}
  deriving DecidableEq, Repr, Inhabited

namespace ExternalEncoder

structure Files where
  input : Path
  image : Path
  palette : Path
  deriving DecidableEq, Repr

def inputName : String := "canonical.png"
def imageName : String := "image.bin"
def paletteName : String := "palette.bin"

def files (dir : Location) : Files :=
  ⟨Location.path (dir ++ [inputName]), Location.path (dir ++ [imageName]),
    Location.path (dir ++ [paletteName])⟩

/-- The arguments that every encoder is given. -/
def standardArgs (s : EncodeSettings) (f : Files) : List String :=
  ["-b", toString s.depth.bits] ++ (if s.count = 0 then [] else ["-q", toString s.count]) ++
    [f.input.text, f.image.text, f.palette.text]

def invocation (e : ExternalEncoder) (s : EncodeSettings) (f : Files) : Invocation :=
  ⟨e.program, e.args ++ standardArgs s f⟩

def collect (w : Workspace) (f : Files) : Except ConvertError (List UInt8 × List UInt8) := do
  let image ← produced imageName (w.read f.image)
  let palette ← produced paletteName (w.read f.palette)
  return (image, palette)
where
  /-- A file that the program has to write. -/
  produced (name : String) : Except FileError (List UInt8) →
      Except ConvertError (List UInt8)
    | .ok data => .ok data
    | .error e =>
      .error (.encodingFailure ("encoder did not produce " ++ name ++ ": " ++ e.message))

/-- Makes a pair of what a run has left behind. -/
def conclude (e : ExternalEncoder) (w : Workspace) (image : Raster) (s : EncodeSettings)
    (f : Files) : Except FileError Outcome → Except ConvertError EncodedPair
  | .error cause =>
    .error (.encodingFailure ("failed to run " ++ e.program.text ++ ": " ++ cause.message))
  | .ok outcome =>
    if outcome.status.success then
      match collect w f with
      | .error cause => .error cause
      | .ok (imageData, paletteData) =>
        match e.form.check image.width image.height s imageData paletteData with
        | .error fault => .error (.encodingFailure fault.message)
        | .ok entries => .ok ⟨imageData, paletteData, entries⟩
    else
      .error (.encodingFailure (e.program.text ++ " exited with " ++ outcome.status.text ++
        ": " ++ Text.trimmed (Text.ofBytes outcome.complaints)))

def encode (e : ExternalEncoder) (run : Runner) (w : Workspace) (image : Raster)
    (s : EncodeSettings) : Except ConvertError EncodedPair × Workspace :=
  match w.makeTemporary with
  | .error cause => (.error (.io (Location.path Workspace.temporary) cause), w)
  | .ok (w₁, dir) =>
    -- The directory goes away however the run ends.
    let png := Png.ofPixels .rgba image.width image.height image.pixels
    let w₂ := w₁.withTree (w₁.tree.put (dir ++ [inputName]) (.file png.encode))
    let (outcome, w₃) := run w₂ (e.invocation s (files dir))
    (e.conclude w₃ image s (files dir) outcome, w₃.clear dir)

end ExternalEncoder

end PaletteBitmap

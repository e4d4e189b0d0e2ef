import PaletteBitmap.Conversion.Error
import PaletteBitmap.File.Workspace

/-!
# Writing outputs

A file is written beside its destination first and then moved into place, so that nobody ever
finds half of it.  A pair of files appears together or not at all: when the second cannot be
moved into place, the first is taken back and what stood there before is restored.
-/

namespace PaletteBitmap

structure OutputPair where
  image : Path
  palette : Path
  deriving DecidableEq, Repr

namespace Output

/-- Writes one file through a new file beside it. -/
def writeFile (w : Workspace) (p : Path) (data : List UInt8) :
    Except ConvertError Unit × Workspace :=
  match w.stage p data with
  | .error e => (.error (.io p e), w)
  | .ok (w₁, staged) =>
    match w₁.persist staged p with
    | .error e => (.error (.io p e), w₁.drop staged)
    | .ok w₂ => (.ok (), w₂)

/-- Moves a file that stands at a path out of the way, to a temporary file beside it; nothing
happens where no file stands. -/
def setAside (w : Workspace) (p : Path) :
    Except FileError (Workspace × Option Workspace.Temporary) :=
  if w.isFile p then
    match w.stage p [] with
    | .error e => .error e
    | .ok (w₁, aside) =>
      match w₁.slot p, w₁.locate aside with
      | .error e, _ => .error e
      | _, .error e => .error e
      | .ok l, .ok target =>
        match w₁.tree.get? l with
        | none => .error .notFound
        | some e => .ok (w₁.withTree ((w₁.tree.erase l).put target e), some aside)
  else .ok (w, none)

/-- Puts a path back to what it was: the entry set aside, or nothing. -/
def restore (w : Workspace) (p : Path) : Option Workspace.Temporary → Workspace
  | some aside =>
    match w.persist aside p with
    | .ok w' => w'
    | .error _ => w.drop aside
  | none =>
    match w.remove p with
    | .ok w' => w'
    | .error _ => w

end Output

namespace OutputPair

/-- Moves both staged files into place, or puts the image path back and removes them. -/
def promote (w : Workspace) (out : OutputPair) (imageStaged paletteStaged : Workspace.Temporary) :
    Except ConvertError Unit × Workspace :=
  match Output.setAside w out.image with
  | .error e => (.error (.io out.image e), (w.drop paletteStaged).drop imageStaged)
  | .ok (w₁, previous) =>
    -- From here on the image path changes, so every failure has to put it back.
    match w₁.persist imageStaged out.image with
    | .error e =>
      (.error (.io out.image e),
        ((Output.restore w₁ out.image previous).drop imageStaged).drop paletteStaged)
    | .ok w₂ =>
      -- The palette is replaced in one move, so nothing has to be set aside for it.
      match w₂.persist paletteStaged out.palette with
      | .error e =>
        (.error (.io out.palette e), (Output.restore w₂ out.image previous).drop paletteStaged)
      | .ok w₃ =>
        (.ok (), match previous with
          | some aside => w₃.drop aside
          | none => w₃)

def commit (w : Workspace) (out : OutputPair) (image palette : List UInt8) :
    Except ConvertError Unit × Workspace :=
  match w.stage out.image image with
  | .error e => (.error (.io out.image e), w)
  | .ok (w₁, imageStaged) =>
    match w₁.stage out.palette palette with
    | .error e => (.error (.io out.palette e), w₁.drop imageStaged)
    | .ok (w₂, paletteStaged) => promote w₂ out imageStaged paletteStaged

end OutputPair

end PaletteBitmap

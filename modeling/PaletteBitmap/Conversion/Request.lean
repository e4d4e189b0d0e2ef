import PaletteBitmap.Conversion.Error
import PaletteBitmap.File.Workspace

/-!
# Requests

What a caller asks for, and the check it has to pass before any file is read or written: the
size, then the depth, then the number of colors, then the paths.  The two outputs must be
different entries, and neither may be the entry that the source is read from.

Entries are compared as a directory and a name in it.  A directory reached by another
spelling or through links is the same directory; a name is taken as it stands, as replacing a
link never touches what the link points to.
-/

namespace PaletteBitmap

/-! ## Depth and number of colors -/

/-- A depth and a number of colors that it can tell apart. -/
structure EncodeSettings where
  depth : BitDepth
  /-- The most palette entries; zero keeps all colors. -/
  count : Nat
  count_le : count ≤ depth.capacity
  deriving DecidableEq, Repr

namespace EncodeSettings

def ofRaw (bits count : Nat) : Except ConvertError EncodeSettings :=
  match BitDepth.ofBits? bits with
  | none => .error (.invalidBitDepth bits)
  | some d =>
    if h : count ≤ d.capacity then .ok ⟨d, count, h⟩
    else .error (.invalidQuantizeCount count bits d.capacity)

end EncodeSettings

/-! ## Paths -/

structure Endpoints where
  source : Path
  image : Path
  palette : Path
  deriving DecidableEq, Repr

namespace Endpoints

/-- Whether two paths name the same entry. -/
def sameEntry (w : Workspace) (p q : Path) : Bool :=
  p.same q ||
    match w.place? p, w.place? q with
    | some x, some y => x == y
    | _, _ => false

/-- Checks that the outputs overwrite neither each other nor the source. -/
def check (w : Workspace) (e : Endpoints) : Except ConvertError Unit :=
  if sameEntry w e.image e.palette then
    .error (.invalidOutputPaths ("image and palette both write to " ++ e.image.text))
  else
    match [e.image, e.palette].find? fun out => sameEntry w out e.source with
    | some out => .error (.invalidOutputPaths (out.text ++ " would overwrite the source image"))
    | none => .ok ()

end Endpoints

/-! ## Requests -/

/-- What a caller asks for: with a size to resample to, or at the source's own size. -/
structure ConversionParams where
  size : Option (Nat × Nat)
  bits : Nat
  count : Nat
  paths : Endpoints
  deriving DecidableEq, Repr

/-- A request that passed the check. -/
structure ConversionRequest where
  size : Option (Nat × Nat)
  settings : EncodeSettings
  paths : Endpoints
  deriving DecidableEq, Repr

namespace ConversionParams

def checkSize : Option (Nat × Nat) → Except ConvertError Unit
  | none => .ok ()
  | some (width, height) =>
    if width = 0 ∨ height = 0 then .error (.invalidDimensions width height) else .ok ()

/-- Checks everything that can be checked before a file is touched. -/
def validate (w : Workspace) (p : ConversionParams) : Except ConvertError ConversionRequest :=
  match checkSize p.size with
  | .error e => .error e
  | .ok () =>
    match EncodeSettings.ofRaw p.bits p.count with
    | .error e => .error e
    | .ok settings =>
      match p.paths.check w with
      | .error e => .error e
      | .ok () => .ok ⟨p.size, settings, p.paths⟩

end ConversionParams

end PaletteBitmap

import PaletteBitmap.Bitmap.Repack
import PaletteBitmap.Conversion.Output
import PaletteBitmap.Palette.Layout
import PaletteBitmap.Png.Writer

/-!
# Previews

A bitmap and its palette can be looked at as an indexed PNG file.  The two are checked
against each other first: the bitmap has the size it is said to have, the palette has at least
one entry and no more than the depth can tell apart, and no pixel points past its end.

How the picture is written to a file is a parameter, `Png.Writer`.
-/

namespace PaletteBitmap

/-- A pair of files to look at, and the PNG file to write. -/
structure PreviewRequest where
  image : Path
  palette : Path
  width : Nat
  height : Nat
  depth : BitDepth
  format : PaletteFormat := .rgba8888
  order : PixelOrder := .lowFirst
  output : Path
  deriving DecidableEq, Repr

/-- Why a bitmap and a palette do not go together. -/
inductive AssetFault where
  | palette (cause : PaletteError)
  /-- The palette is empty or has more entries than the depth can tell apart. -/
  | paletteSize (entries bits capacity : Nat)
  | bitmap (cause : PackError)
  /-- A pixel points past the end of the palette. -/
  | unmappedIndex (index : UInt8) (entries : Nat)
  deriving DecidableEq, Repr

def AssetFault.message : AssetFault → String
  | .palette cause => cause.message
  | .paletteSize entries bits capacity =>
    s!"palette has {entries} entries, a {bits}-bit image needs 1 to {capacity}"
  | .bitmap cause => cause.message
  | .unmappedIndex index entries => s!"index {index} is past the end of a {entries}-entry palette"

namespace PreviewRequest

/-- The PNG file of a bitmap and colors. -/
def png (bitmap : PackedBitmap) (colors : List Rgba) : Png :=
  { width := bitmap.width
    height := bitmap.height
    kind := .indexed
    depth := bitmap.depth.bits
    palette := some (colors.flatMap fun c => [c.r, c.g, c.b])
    transparency := if colors.any (·.a ≠ 255) then some (colors.map (·.a)) else none
    rows := (bitmap.repack .highFirst).data }

/-- Checks the bytes of a bitmap and a palette against each other and draws them. -/
def draw (r : PreviewRequest) (image palette : List UInt8) : Except AssetFault Png :=
  match r.format.decode palette with
  | .error e => .error (.palette e)
  | .ok colors =>
    if colors.isEmpty ∨ r.depth.capacity < colors.length then
      .error (.paletteSize colors.length r.depth.bits r.depth.capacity)
    else
      -- The sides have 32 bits here, so nothing is lost in counting.
      match PackedBitmap.ofBytesWith id image r.width r.height r.depth r.order with
      | .error e => .error (.bitmap e)
      | .ok bitmap =>
        match bitmap.unpack.find? fun i => colors.length ≤ i.toNat with
        | some i => .error (.unmappedIndex i colors.length)
        | none => .ok (png bitmap colors)

/-- Reads the pair and draws it. -/
def prepare (w : Workspace) (r : PreviewRequest) : Except ConvertError Png :=
  if r.width = 0 ∨ r.height = 0 then .error (.invalidDimensions r.width r.height)
  else
    match w.read r.image with
    | .error e => .error (.io r.image e)
    | .ok image =>
      match w.read r.palette with
      | .error e => .error (.io r.palette e)
      | .ok palette =>
        match r.draw image palette with
        | .error fault => .error (.invalidAssets fault.message)
        | .ok p => .ok p

/-- Draws the pair and writes the picture, with a way of writing pictures. -/
def renderWith (write : Png.Writer) (w : Workspace) (r : PreviewRequest) :
    Except ConvertError Unit × Workspace :=
  match r.prepare w with
  | .error e => (.error e, w)
  | .ok p =>
    match write p with
    | .error reason => (.error (.pngEncode reason), w)
    | .ok bytes => Output.writeFile w r.output bytes

def render (w : Workspace) (r : PreviewRequest) : Except ConvertError Unit × Workspace :=
  r.renderWith Png.plain w

end PreviewRequest

end PaletteBitmap

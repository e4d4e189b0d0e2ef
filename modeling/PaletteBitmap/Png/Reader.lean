import PaletteBitmap.Bitmap.Packed
import PaletteBitmap.Png.Chunk
import PaletteBitmap.Png.Filter
import PaletteBitmap.Png.Inflate

/-!
# Reading PNG files

`Png.decode` reads any file of eight or fewer bits a sample that is not interlaced.

What counts are the chunks up to the run of chunks with the rows, and that another chunk
follows.  Of the chunks before the rows the critical ones have to be right; an ancillary one
that is not right is passed over, but for the place of a frame: there the first frame has to
be the image itself.
-/

namespace PaletteBitmap
namespace Png

/-! ## Head -/

/-- Whether a kind of samples may have a depth. -/
def allowed (kind : SampleKind) (depth : Nat) : Bool :=
  match kind with
  | .gray | .indexed => depth == 1 || depth == 2 || depth == 4 || depth == 8
  | _ => depth == 8

/-- Reads the head of a file: size, depth and kind, with no rows yet. -/
def ofHead? (data : List UInt8) : Option Png :=
  match data.drop 8 with
  | depth :: kind :: 0 :: 0 :: 0 :: _ => do
    let kind ← SampleKind.ofCode? kind
    let width := numberOf (data.take 4)
    let height := numberOf ((data.drop 4).take 4)
    if 0 < width ∧ 0 < height ∧ allowed kind depth.toNat then
      return { width := width, height := height, kind := kind, depth := depth.toNat, rows := [] }
    else none
  | _ => none

/-! ## Chunks before the rows -/

/-- A palette has at most this many colors. -/
def maxColors : Nat := 256

/-- Takes the palette, of which there may be one. -/
def withPalette? (p : Png) (data : List UInt8) : Option Png :=
  if p.palette.isSome ∨ data = [] ∨ data.length % 3 ≠ 0 ∨ 3 * maxColors < data.length then none
  else some { p with palette := some data }

/-- Whether a transparency is of use for the samples. -/
def takesTransparency (p : Png) (data : List UInt8) : Bool :=
  match p.kind with
  | .gray => 2 ≤ data.length
  | .rgb => 6 ≤ data.length
  | .indexed => p.palette.isSome
  | .grayAlpha | .rgba => false

/-- Takes the first transparency that is of use. -/
def withTransparency (p : Png) (data : List UInt8) : Png :=
  if p.transparency.isNone ∧ p.takesTransparency data then { p with transparency := some data }
  else p

/-- Whether the place of frame number `n` is that of the whole image. -/
def isWholeFrame (p : Png) (n : Nat) (data : List UInt8) : Bool :=
  let word (i : Nat) := numberOf ((data.drop (4 * i)).take 4)
  26 ≤ data.length && word 0 == n && word 1 == p.width && word 2 == p.height &&
    word 3 == 0 && word 4 == 0 && data.getD 24 0 ≤ 2 && data.getD 25 0 ≤ 1

/-- What the chunks before the rows amount to. -/
structure Preamble where
  png : Png
  /-- How many places of frames there were. -/
  frames : Nat := 0
  deriving DecidableEq, Repr

namespace Preamble

/-- Takes one more chunk. -/
def take? (b : Preamble) (c : Chunk) : Option Preamble :=
  if c.type = .frameData then none
  else if !c.intact then if c.type.isCritical then none else some b
  else if c.type = .palette then
    (b.png.withPalette? c.data).map fun p => { b with png := p }
  else if c.type = .transparency then
    some { b with png := b.png.withTransparency c.data }
  else if c.type = .frame then
    if b.png.isWholeFrame b.frames c.data then some { b with frames := b.frames + 1 } else none
  else if c.type.isCritical then none
  else some b

/-- Takes the chunks up to the first one with rows; the answer has the bytes from there on. -/
def read? : Nat → Preamble → List UInt8 → Option (Png × List UInt8)
  | 0, _, _ => none
  | fuel + 1, b, bytes =>
    if Chunk.typeOf bytes = .data then some (b.png, bytes)
    else
      match Chunk.next? bytes with
      | none => none
      | some (c, rest) =>
        match b.take? c with
        | none => none
        | some b => read? fuel b rest

end Preamble

/-! ## Rows -/

/-- The data of the chunks with rows that follow each other; a chunk of another type has to
stand behind them. -/
def dataRun? : Nat → List UInt8 → Option (List UInt8)
  | 0, _ => none
  | fuel + 1, bytes =>
    let type := Chunk.typeOf bytes
    if type.length < 4 then none
    else if type ≠ .data then some []
    else
      match Chunk.next? bytes with
      | none => none
      | some (c, rest) =>
        if c.intact then (dataRun? fuel rest).map (c.data ++ ·) else none

/-- The rows that expanded data hold. -/
def rows? (p : Png) (filtered : List UInt8) : Option (List UInt8) :=
  let size := (p.stride + 1) * p.height
  if filtered.length < size then none
  else
    let bpp := max 1 (p.kind.samples * p.depth / 8)
    unfilterRows bpp #[] (groups (p.stride + 1) (filtered.take size))

def decode (bytes : List UInt8) : Option Png := do
  if bytes.take 8 ≠ signature then none
  else
    let (first, rest) ← Chunk.next? (bytes.drop 8)
    if first.type ≠ .head ∨ !first.intact then none
    else
      let head ← ofHead? first.data
      let (png, rest) ← Preamble.read? bytes.length { png := head } rest
      let packed ← dataRun? bytes.length rest
      if png.kind = .indexed ∧ png.palette.isNone then none
      else
        let filtered ← Inflate.expandWrapped packed
        let rows ← png.rows? filtered
        return { png with rows := rows }

end Png
end PaletteBitmap

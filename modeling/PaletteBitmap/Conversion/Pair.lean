import PaletteBitmap.Conversion.Options

/-!
# Encoded pairs

The bytes of a bitmap and of its palette as they go into files, and the check that a pair made
elsewhere has to pass: the bitmap has the size of the image, the palette has whole entries, no
more than the depth can tell apart or were asked for, and no pixel points past its end.
-/

namespace PaletteBitmap

/-- What encoding an image yields for its two files. -/
structure EncodedPair where
  image : List UInt8
  palette : List UInt8
  /-- The entries of the palette, those of the padding included. -/
  entries : Nat
  deriving DecidableEq, Repr

def ConversionOptions.encode (o : ConversionOptions) (image : Raster) (s : EncodeSettings) :
    Except ConvertError EncodedPair :=
  match (o.encoder s).encode image with
  | .error e => .error (.ofEncode e s.depth)
  | .ok a => .ok ⟨a.bitmap.data, a.paletteBytes, a.paletteBytes.length / o.format.entrySize⟩

/-! ## Checking -/

inductive PairFault where
  /-- The bitmap has not the bytes that the image needs. -/
  | imageLength (actual expected : Nat)
  /-- The palette is empty or ends within an entry. -/
  | partialPalette (length entrySize : Nat)
  /-- The palette has more entries than the depth can tell apart. -/
  | overfullPalette (entries bits capacity : Nat)
  /-- The palette has more entries than were asked for. -/
  | unwantedEntries (entries count : Nat)
  | bitmap (cause : PackError)
  /-- A pixel points past the end of the palette. -/
  | unmappedIndex (index : UInt8) (entries : Nat)
  deriving DecidableEq, Repr

def PairFault.message : PairFault → String
  | .imageLength actual expected =>
    s!"encoder wrote {actual} bytes of image data, expected {expected}"
  | .partialPalette length entrySize =>
    s!"encoder wrote {length} bytes of palette data, not a whole number of " ++
      s!"{entrySize}-byte entries"
  | .overfullPalette entries bits capacity =>
    s!"encoder wrote {entries} palette entries, a {bits}-bit image holds at most {capacity}"
  | .unwantedEntries entries count =>
    s!"encoder wrote {entries} palette entries, more than the {count} requested"
  | .bitmap cause => cause.message
  | .unmappedIndex index entries =>
    s!"encoder wrote index {index}, past the end of its {entries}-entry palette"

/-- The form in which a pair is expected. -/
structure PairForm where
  format : PaletteFormat := .rgba8888
  order : PixelOrder := .lowFirst
  /-- Whether the palette is filled up to what the depth can tell apart. -/
  pad : Bool := false
  deriving DecidableEq, Repr, Inhabited

namespace PairForm

/-- Checks the pair of an image of `width * height` pixels; yields the entries of the
palette. -/
def check (f : PairForm) (width height : Nat) (s : EncodeSettings)
    (image palette : List UInt8) : Except PairFault Nat :=
  let expected := s.depth.stride width * height
  let entries := palette.length / f.format.entrySize
  if image.length ≠ expected then .error (.imageLength image.length expected)
  else if palette.isEmpty ∨ palette.length % f.format.entrySize ≠ 0 then
    .error (.partialPalette palette.length f.format.entrySize)
  else if s.depth.capacity < entries then
    .error (.overfullPalette entries s.depth.bits s.depth.capacity)
  else if 0 < s.count ∧ f.pad = false ∧ s.count < entries then
    .error (.unwantedEntries entries s.count)
  else
    match PackedBitmap.ofBytes image width height s.depth f.order with
    | .error e => .error (.bitmap e)
    | .ok bitmap =>
      match bitmap.unpack.find? fun i => entries ≤ i.toNat with
      | some i => .error (.unmappedIndex i entries)
      | none => .ok entries

end PairForm

end PaletteBitmap

import PaletteBitmap.Palette.Basic
import PaletteBitmap.Text.Blank
import PaletteBitmap.Name
import PaletteBitmap.Size

/-!
# Palette files

A palette file is the sequence of its entries and nothing else.  An entry takes one of two
forms:

* `rgba8888`: the four channels, a byte each;
* `psx16`: a little-endian word of sixteen bits that holds the upper five bits of red, green
  and blue, lowest bits first.  The word zero means "transparent"; a visible color whose
  fifteen bits are all zero gets the top bit set instead.

The `psx16` form keeps no shades of alpha: a color below the cutoff is written as
transparent, any other as fully visible.

The length of a file is computed in words.  A length that has no room in a word is cut there, and
the file with it, entries included.
-/

namespace PaletteBitmap

/-! ## Entry formats -/

/-- The form of one entry of a palette file. -/
inductive PaletteFormat where
  | rgba8888
  | psx16
  deriving DecidableEq, Repr, Inhabited

namespace PaletteFormat

def name : PaletteFormat → String
  | rgba8888 => "rgba8888"
  | psx16 => "psx16"

/-- The format of a name: blanks around it and the case of its letters do not count. -/
def ofName (s : String) : Except UnknownName PaletteFormat :=
  match Text.lowered (Text.trimmed s) with
  | "rgba8888" | "rgba" => .ok rgba8888
  | "psx16" | "psx" => .ok psx16
  | _ => .error (.paletteFormat (Text.trimmed s))

def entrySize : PaletteFormat → Nat
  | rgba8888 => 4
  | psx16 => 2

theorem entrySize_pos (f : PaletteFormat) : 0 < f.entrySize := by
  cases f <;> decide

/-- The word of a color in the `psx16` form. -/
def psxWord (c : Rgba) (cutoff : UInt8) : UInt16 :=
  if c.a < cutoff then 0
  else
    let word := (c.r >>> 3).toUInt16 ||| ((c.g >>> 3).toUInt16 <<< 5) |||
      ((c.b >>> 3).toUInt16 <<< 10)
    if word = 0 then 0x8000 else word

/-- Widens five bits to eight by repeating the upper ones below. -/
def widen (word : UInt16) : UInt8 :=
  let v := (word &&& 0x1F).toUInt8
  (v <<< 3) ||| (v >>> 2)

/-- The color of a word in the `psx16` form. -/
def psxColor (word : UInt16) : Rgba :=
  if word = 0 then Rgba.transparent
  else Rgba.solid (widen word) (widen (word >>> 5)) (widen (word >>> 10))

def encodeEntry (f : PaletteFormat) (cutoff : UInt8) (c : Rgba) : List UInt8 :=
  match f with
  | rgba8888 => c.toBytes
  | psx16 =>
    let word := psxWord c cutoff
    [word.toUInt8, (word >>> 8).toUInt8]

/-- Reads words of two bytes, the low byte first. -/
def psxColors : List UInt8 → List Rgba
  | low :: high :: rest => psxColor (low.toUInt16 ||| (high.toUInt16 <<< 8)) :: psxColors rest
  | _ => []

/-- Reads the entries of a palette file; equal entries are allowed, as padding repeats one. -/
def decode (f : PaletteFormat) (bytes : List UInt8) : Except PaletteError (List Rgba) :=
  if bytes.length % f.entrySize ≠ 0 then .error (.partialEntry bytes.length f.entrySize)
  else
    match f with
    | rgba8888 => .ok (Rgba.listOfBytes bytes)
    | psx16 => .ok (psxColors bytes)

@[simp]
theorem length_encodeEntry (f : PaletteFormat) (cutoff : UInt8) (c : Rgba) :
    (f.encodeEntry cutoff c).length = f.entrySize := by
  cases f <;> rfl

end PaletteFormat

/-! ## Layouts -/

/-- How a palette is laid out in its file. -/
structure PaletteLayout where
  format : PaletteFormat := .rgba8888
  /-- The alpha below which a `psx16` entry is written as transparent. -/
  cutoff : UInt8 := 128
  /-- The number of entries to fill up to with zero bytes, if any. -/
  padTo : Option Nat := none
  deriving DecidableEq, Repr, Inhabited

namespace PaletteLayout

/-- How many entries a file of `n` colors holds. -/
def entryCount (l : PaletteLayout) (n : Nat) : Nat := max (l.padTo.getD 0) n

/-- How many bytes the entries of a file of `n` colors take. -/
def fileSize (l : PaletteLayout) (n : Nat) : Nat := l.entryCount n * l.format.entrySize

end PaletteLayout

/-- The entries one after another, cut or filled up with zeros to the length of the file. -/
def Palette.toBytes (p : Palette) (l : PaletteLayout) : List UInt8 :=
  let length := wordSize (l.fileSize p.size)
  ((p.entries.flatMap (l.format.encodeEntry l.cutoff)).take length).rightpad length 0

end PaletteBitmap

import PaletteBitmap.Bitmap.Packed
import PaletteBitmap.Png.Basic
import PaletteBitmap.Png.Chunk

/-!
# Writing PNG files

There are many files with the same content, so how a content is written is a parameter,
`Png.Writer`, where it matters only that something is.  `Png.encode` writes a content with
unfiltered rows, in deflated blocks that are not compressed.
-/

namespace PaletteBitmap
namespace Png

/-- A way of writing a content to the bytes of a file, or of saying why that cannot be done. -/
abbrev Writer := Png → Except String (List UInt8)

/-- Bytes as deflated blocks that are not compressed. -/
def storedBlocks (bytes : List UInt8) : List UInt8 :=
  let parts := groups 65535 bytes
  let parts := if parts.isEmpty then [[]] else parts
  parts.zipIdx.flatMap fun (part, i) =>
    let n := UInt16.ofNat part.length
    let last : UInt8 := if i + 1 = parts.length then 1 else 0
    [last, n.toUInt8, (n >>> 8).toUInt8, (~~~n).toUInt8, ((~~~n) >>> 8).toUInt8] ++ part

/-- Bytes in the wrapping of compressed data. -/
def wrap (bytes : List UInt8) : List UInt8 :=
  [0x78, 0x01] ++ storedBlocks bytes ++ wordBytes (adler bytes)

/-- The head of a file: size, depth and kind, and no options. -/
def headBytes (p : Png) : List UInt8 :=
  wordBytes (UInt32.ofNat p.width) ++ wordBytes (UInt32.ofNat p.height) ++
    [UInt8.ofNat p.depth, p.kind.code, 0, 0, 0]

/-- The rows, each behind the number of the filter that changes nothing. -/
def unfilteredRows (p : Png) : List UInt8 :=
  (groups p.stride p.rows).flatMap fun row => 0 :: row

def chunks (p : Png) : List Chunk :=
  let optional (type : ChunkType) (data : Option (List UInt8)) : List Chunk :=
    (data.map fun d => { type := type, data := d }).toList
  { type := .head, data := p.headBytes } ::
    optional .palette p.palette ++ optional .transparency p.transparency ++
    [{ type := .data, data := wrap p.unfilteredRows }, { type := .ending, data := [] }]

def encode (p : Png) : List UInt8 := signature ++ p.chunks.flatMap Chunk.toBytes

/-- Writes every content, and nothing compressed. -/
def plain : Writer := fun p => .ok p.encode

end Png
end PaletteBitmap

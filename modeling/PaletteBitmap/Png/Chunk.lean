import PaletteBitmap.Png.Checksum

/-!
# Chunks of PNG files

A PNG file is a signature and a sequence of chunks, each with a length, a type, data and a
check.  A type that starts with a small letter is ancillary: such a chunk may be passed over.
-/

namespace PaletteBitmap
namespace Png

/-- The bytes that every PNG file begins with. -/
def signature : List UInt8 := [0x89, 0x50, 0x4E, 0x47, 0x0D, 0x0A, 0x1A, 0x0A]

/-- The bytes of the type of a chunk. -/
abbrev ChunkType := List UInt8

namespace ChunkType

def head : ChunkType := "IHDR".toUTF8.toList

def palette : ChunkType := "PLTE".toUTF8.toList

def transparency : ChunkType := "tRNS".toUTF8.toList

/-- A part of the rows. -/
def data : ChunkType := "IDAT".toUTF8.toList

def ending : ChunkType := "IEND".toUTF8.toList

/-- The place of a frame of an animation. -/
def frame : ChunkType := "fcTL".toUTF8.toList

/-- A part of the rows of a later frame. -/
def frameData : ChunkType := "fdAT".toUTF8.toList

/-- Whether a chunk of the type may not be passed over. -/
def isCritical (t : ChunkType) : Bool := t.head?.all fun b => b &&& 32 == 0

end ChunkType

/-! ## Chunks -/

structure Chunk where
  type : ChunkType
  data : List UInt8
  /-- Whether the check is right. -/
  intact : Bool := true
  deriving DecidableEq, Repr

namespace Chunk

def toBytes (c : Chunk) : List UInt8 :=
  let body := c.type ++ c.data
  wordBytes (UInt32.ofNat c.data.length) ++ body ++ wordBytes (crc body)

/-- The type of the chunk that some bytes begin with. -/
def typeOf (bytes : List UInt8) : ChunkType := (bytes.drop 4).take 4

/-- Reads a chunk; the answer has the bytes behind it, too. -/
def next? (bytes : List UInt8) : Option (Chunk × List UInt8) :=
  let n := numberOf (bytes.take 4)
  let type := typeOf bytes
  let data := (bytes.drop 8).take n
  let rest := bytes.drop (8 + n)
  let check := rest.take 4
  if data.length = n ∧ check.length = 4 then
    some (⟨type, data, check == wordBytes (crc (type ++ data))⟩, rest.drop 4)
  else none

end Chunk

end Png
end PaletteBitmap

/-!
# Checksums of PNG files

A chunk carries the cyclic redundancy check of its type and data, and compressed data end in
the Adler sum of what they expand to.
-/

namespace PaletteBitmap
namespace Png

/-! ## Cyclic redundancy check -/

/-- One bit of the division by the generator polynomial, lowest bit first. -/
def crcBit (c : UInt32) : UInt32 :=
  if c &&& 1 = 1 then (c >>> 1) ^^^ 0xEDB88320 else c >>> 1

/-- The remainder of each byte. -/
def crcTable : Array UInt32 :=
  (Array.range 256).map fun n => Nat.repeat crcBit 8 (UInt32.ofNat n)

/-- Takes one more byte into the check. -/
def crcByte (c : UInt32) (b : UInt8) : UInt32 :=
  crcTable.getD ((c ^^^ b.toUInt32) &&& 0xFF).toNat 0 ^^^ (c >>> 8)

/-- The check of some bytes. -/
def crc (bytes : List UInt8) : UInt32 :=
  bytes.foldl crcByte 0xFFFFFFFF ^^^ 0xFFFFFFFF

/-! ## Adler sum -/

/-- The Adler sum of some bytes: the sum of the bytes and the sum of the partial sums, each
modulo 65521. -/
def adler (bytes : List UInt8) : UInt32 :=
  let (a, b) := bytes.foldl
    (fun (a, b) byte =>
      let a := (a + byte.toNat) % 65521
      (a, (b + a) % 65521)) (1, 0)
  UInt32.ofNat (b * 65536 + a)

/-! ## Numbers of several bytes -/

/-- Four bytes, the highest first. -/
def wordBytes (w : UInt32) : List UInt8 :=
  [(w >>> 24).toUInt8, (w >>> 16).toUInt8, (w >>> 8).toUInt8, w.toUInt8]

/-- The number that bytes stand for, the highest first. -/
def numberOf (bytes : List UInt8) : Nat :=
  bytes.foldl (fun n b => n * 256 + b.toNat) 0

end Png
end PaletteBitmap

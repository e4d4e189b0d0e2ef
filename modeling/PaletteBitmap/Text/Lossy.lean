/-!
# Text of bytes

Bytes that are meant to be text may hold parts that are not.  Each maximal run of bytes that
could begin a character but does not complete one, and each byte that begins none, is read as
the replacement character.
-/

namespace PaletteBitmap
namespace Text

/-- The character that stands for what is no text. -/
def replacement : Char := '\uFFFD'

/-- Whether a byte may go on a character. -/
def isTail (b : UInt8) : Bool := 0x80 ≤ b && b ≤ 0xBF

/-- How many bytes follow a first byte, and the range of the second one; nothing for a byte
that begins no character of several bytes. -/
def lead? (b : UInt8) : Option (Nat × UInt8 × UInt8) :=
  if 0xC2 ≤ b && b ≤ 0xDF then some (1, 0x80, 0xBF)
  else if b == 0xE0 then some (2, 0xA0, 0xBF)
  else if b == 0xED then some (2, 0x80, 0x9F)
  else if 0xE1 ≤ b && b ≤ 0xEF then some (2, 0x80, 0xBF)
  else if b == 0xF0 then some (3, 0x90, 0xBF)
  else if 0xF1 ≤ b && b ≤ 0xF3 then some (3, 0x80, 0xBF)
  else if b == 0xF4 then some (3, 0x80, 0x8F)
  else none

/-- A character being read: its bits so far, how many bytes it still needs, and the range of
the next one. -/
structure Unfinished where
  bits : Nat
  missing : Nat
  low : UInt8
  high : UInt8

/-- Begins a character. -/
def start (b : UInt8) : List Char × Option Unfinished :=
  if b < 0x80 then ([Char.ofNat b.toNat], none)
  else
    match lead? b with
    | none => ([replacement], none)
    | some (n, low, high) =>
      ([], some ⟨b.toNat % Nat.pow 2 (6 - n), n, low, high⟩)

/-- Takes one more byte into a character. -/
def extend (p : Unfinished) (b : UInt8) : List Char × Option Unfinished :=
  if p.low ≤ b && b ≤ p.high then
    let bits := p.bits * 64 + b.toNat % 64
    if p.missing = 1 then ([Char.ofNat bits], none)
    else ([], some ⟨bits, p.missing - 1, 0x80, 0xBF⟩)
  else
    let (cs, next) := start b
    (replacement :: cs, next)

/-- Reads bytes after an unfinished character, if there is one. -/
def charsFrom : Option Unfinished → List UInt8 → List Char
  | none, [] => []
  | some _, [] => [replacement]
  | none, b :: rest =>
    let (cs, next) := start b
    cs ++ charsFrom next rest
  | some p, b :: rest =>
    let (cs, next) := extend p b
    cs ++ charsFrom next rest

def ofBytes (bytes : List UInt8) : String := String.ofList (charsFrom none bytes)

end Text
end PaletteBitmap

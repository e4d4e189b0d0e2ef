/-!
# Prefix-free codes of deflated data

Deflated data are read bit by bit, and most of them are words of a prefix-free code.  A code is
kept as the number of its words of each length and the symbols in the order of their words; a
word is found by comparing what was read with the range of words of each length.

A code at the head of a block has to use up all words, with one exception: there may be a
single word of one bit, or none, where distances are meant.
-/

namespace PaletteBitmap
namespace Inflate

inductive Stop where
  /-- There are no more bits. -/
  | exhausted
  /-- The bits mean nothing. -/
  | invalid
  deriving DecidableEq, Repr

/-! ## Bits -/

/-- A place in a sequence of bits; each byte gives its lowest bit first. -/
structure Bits where
  bytes : ByteArray
  position : Nat := 0

namespace Bits

def total (r : Bits) : Nat := r.bytes.size * 8

def next (r : Bits) : Except Stop (Nat × Bits) :=
  if h : r.position / 8 < r.bytes.size then
    let byte := r.bytes[r.position / 8]
    .ok ((byte.toNat >>> (r.position % 8)) % 2, { r with position := r.position + 1 })
  else .error .exhausted

/-- The number of the next `n` bits, the lowest first. -/
def take : Nat → Bits → Except Stop (Nat × Bits)
  | 0, r => .ok (0, r)
  | n + 1, r => do
    let (low, r) ← r.next
    let (high, r) ← take n r
    return (low + 2 * high, r)

/-- Goes on to the next whole byte. -/
def align (r : Bits) : Bits := { r with position := (r.position + 7) / 8 * 8 }

end Bits

/-! ## Codes -/

/-- A code in canonical form. -/
structure Code where
  /-- The number of words of each length. -/
  counts : Array Nat
  /-- The symbols, by the length of their words and then by themselves. -/
  symbols : Array Nat

namespace Code

/-- The length of the longest words. -/
def maxLength : Nat := 15

/-- The canonical code in which symbol `i` has a word of length `lengths[i]`; zero for no
word. -/
def ofLengths (lengths : List Nat) : Code :=
  let counts := (List.range (maxLength + 1)).map fun n =>
    if n = 0 then 0 else lengths.count n
  let numbered := lengths.zipIdx
  let symbols := (List.range (maxLength + 1)).flatMap fun n =>
    if n = 0 then [] else (numbered.filter fun p => p.1 == n).map (·.2)
  ⟨counts.toArray, symbols.toArray⟩

/-- How many of the longest words begin with the words of some lengths. -/
def share (lengths : List Nat) : Nat :=
  lengths.foldl (fun n l => if l = 0 then n else n + Nat.pow 2 (maxLength - l)) 0

/-- Whether words of some lengths can be chosen prefix-free and use up all words. -/
def isComplete (lengths : List Nat) : Bool := share lengths == Nat.pow 2 maxLength

/-- Whether there is no word, or a single one of one bit. -/
def isSparse (lengths : List Nat) : Bool :=
  let used := lengths.filter (· ≠ 0)
  used == [] || used == [1]

/-- Reads on through the lengths: `word` is what was read, `first` the first word of the
length and `index` the place of its symbol. -/
def readFrom (c : Code) (word first index length : Nat) :
    Nat → Bits → Except Stop (Nat × Bits)
  | 0, _ => .error .invalid
  | n + 1, r =>
    -- What was read is longer than every word.
    if c.symbols.size ≤ index then .error .invalid
    else do
      let (bit, r) ← r.next
      let word := word * 2 + bit
      -- The words of the next length go on where the shorter ones end.
      let first := first * 2
      let count := c.counts.getD length 0
      if word < first + count then
        match c.symbols[index + (word - first)]? with
        | some symbol => return (symbol, r)
        | none => throw .invalid
      else readFrom c word (first + count) (index + count) (length + 1) n r

def read (c : Code) (r : Bits) : Except Stop (Nat × Bits) := c.readFrom 0 0 0 1 maxLength r

end Code

end Inflate
end PaletteBitmap

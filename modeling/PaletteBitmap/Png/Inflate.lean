import PaletteBitmap.Png.PrefixCode

/-!
# Expanding deflated data

Deflated data are a sequence of blocks.  A block holds bytes as they are, or symbols of a
prefix-free code: literal bytes, an end mark, and copies of what came before.  The codes are
fixed or stand at the head of the block.

Where the data end too early, what they expand to up to there still counts; where they mean
nothing, nothing does.  Each symbol takes at least one bit, so the number of bits bounds every
loop.
-/

namespace PaletteBitmap
namespace Inflate

/-! ## Tables of the format -/

/-- The smallest copy length of each length symbol. -/
def lengthBase : Array Nat :=
  #[3, 4, 5, 6, 7, 8, 9, 10, 11, 13, 15, 17, 19, 23, 27, 31, 35, 43, 51, 59, 67, 83, 99, 115,
    131, 163, 195, 227, 258]

/-- How many bits follow each length symbol. -/
def lengthExtra : Array Nat :=
  #[0, 0, 0, 0, 0, 0, 0, 0, 1, 1, 1, 1, 2, 2, 2, 2, 3, 3, 3, 3, 4, 4, 4, 4, 5, 5, 5, 5, 0]

/-- The smallest distance of each distance symbol. -/
def distanceBase : Array Nat :=
  #[1, 2, 3, 4, 5, 7, 9, 13, 17, 25, 33, 49, 65, 97, 129, 193, 257, 385, 513, 769, 1025, 1537,
    2049, 3073, 4097, 6145, 8193, 12289, 16385, 24577]

/-- How many bits follow each distance symbol. -/
def distanceExtra : Array Nat :=
  #[0, 0, 0, 0, 1, 1, 2, 2, 3, 3, 4, 4, 5, 5, 6, 6, 7, 7, 8, 8, 9, 9, 10, 10, 11, 11, 12, 12,
    13, 13]

/-- The order in which the lengths of the code for code lengths are given. -/
def lengthOrder : List Nat :=
  [16, 17, 18, 0, 8, 7, 9, 6, 10, 5, 11, 4, 12, 3, 13, 2, 14, 1, 15]

/-- The fixed code of literals and lengths. -/
def fixedLiterals : Code :=
  Code.ofLengths (List.replicate 144 8 ++ List.replicate 112 9 ++ List.replicate 24 7 ++
    List.replicate 8 8)

/-- The fixed code of distances.  Its last two words mean nothing. -/
def fixedDistances : Code := Code.ofLengths (List.replicate 32 5)

/-- The symbol that ends a block. -/
def endSymbol : Nat := 256

/-! ## Items -/

/-- What the symbols of a block stand for. -/
inductive Item where
  | literal (byte : UInt8)
  | copy (length distance : Nat)
  | ending
  deriving DecidableEq, Repr

/-- Reads the number that a symbol of a table stands for, with the bits that follow it. -/
def numberOf (base extra : Array Nat) (symbol : Nat) (r : Bits) : Except Stop (Nat × Bits) :=
  match base[symbol]? with
  | none => .error .invalid
  | some least => do
    let (more, r) ← r.take (extra.getD symbol 0)
    return (least + more, r)

def Item.read (literals distances : Code) (r : Bits) : Except Stop (Item × Bits) := do
  let (symbol, r) ← literals.read r
  if symbol < endSymbol then return (literal (UInt8.ofNat symbol), r)
  else if symbol = endSymbol then return (ending, r)
  else
    let (length, r) ← numberOf lengthBase lengthExtra (symbol - endSymbol - 1) r
    let (symbol, r) ← distances.read r
    let (distance, r) ← numberOf distanceBase distanceExtra symbol r
    return (copy length distance, r)

/-! ## Blocks -/

/-- What was expanded, and where to read on or why not. -/
abbrev Progress := Except Stop Bits × ByteArray

/-- Repeats the `length` bytes that begin `distance` before the end. -/
def repeatBytes (distance : Nat) : Nat → ByteArray → ByteArray
  | 0, out => out
  | n + 1, out => repeatBytes distance n (out.push (out.get! (out.size - distance)))

/-- Reads items up to the one that ends the block. -/
def items (literals distances : Code) : Nat → Bits → ByteArray → Progress
  | 0, _, out => (.error .exhausted, out)
  | fuel + 1, r, out =>
    match Item.read literals distances r with
    | .error stop => (.error stop, out)
    | .ok (.literal byte, r) => items literals distances fuel r (out.push byte)
    | .ok (.ending, r) => (.ok r, out)
    | .ok (.copy length distance, r) =>
      if out.size < distance then (.error .invalid, out)
      else items literals distances fuel r (repeatBytes distance length out)

/-- Reads `n` bytes as they are. -/
def plain : Nat → Bits → ByteArray → Progress
  | 0, r, out => (.ok r, out)
  | n + 1, r, out =>
    let i := r.position / 8
    if h : i < r.bytes.size then
      plain n { r with position := r.position + 8 } (out.push r.bytes[i])
    else (.error .exhausted, out)

/-! ## Codes at the head of a block -/

/-- Reads how often a length is repeated, which is at least `least`. -/
def repeated (bits least length : Nat) (r : Bits) : Except Stop (List Nat × Bits) := do
  let (more, r) ← r.take bits
  return (List.replicate (least + more) length, r)

/-- Reads code lengths until there are `n`, latest first. -/
def codeLengths (code : Code) (n : Nat) : Nat → Bits → List Nat → Except Stop (List Nat × Bits)
  | 0, _, _ => .error .exhausted
  | fuel + 1, r, lengths =>
    if n = lengths.length then .ok (lengths.reverse, r)
    else if n < lengths.length then .error .invalid
    else do
      let (symbol, r) ← code.read r
      let (more, r) ← match symbol, lengths with
        | 16, last :: _ => repeated 2 3 last r
        | 16, [] => throw .invalid
        | 17, _ => repeated 3 3 0 r
        | 18, _ => repeated 7 11 0 r
        | length, _ => pure ([length], r)
      codeLengths code n fuel r (more ++ lengths)

/-- Reads `n` lengths of three bits. -/
def shortLengths : Nat → Bits → Except Stop (List Nat × Bits)
  | 0, r => .ok ([], r)
  | n + 1, r => do
    let (v, r) ← r.take 3
    let (rest, r) ← shortLengths n r
    return (v :: rest, r)

/-- Reads the two codes at the head of a block. -/
def codes (r : Bits) : Except Stop (Code × Code × Bits) := do
  let (literals, r) ← r.take 5
  let (distances, r) ← r.take 5
  let (given, r) ← r.take 4
  if 29 < literals ∨ 29 < distances then throw .invalid
  else
    let (short, r) ← shortLengths (given + 4) r
    -- Symbols that the list of lengths leaves out have no word.
    let byOrder := lengthOrder.zip short
    let first := (List.range lengthOrder.length).map fun s => (byOrder.lookup s).getD 0
    if !Code.isComplete first then throw .invalid
    else
      let n := literals + 257
      let (lengths, r) ← codeLengths (Code.ofLengths first) (n + distances + 1) (r.total + 1) r []
      let (lengths, farther) := (lengths.take n, lengths.drop n)
      if lengths.getD endSymbol 0 = 0 ∨ !Code.isComplete lengths ∨
          !(Code.isComplete farther || Code.isSparse farther) then throw .invalid
      else return (Code.ofLengths lengths, Code.ofLengths farther, r)

/-- Reads the length of a block of plain bytes, which its complement follows. -/
def plainLength (r : Bits) : Except Stop (Nat × Bits) := do
  let (n, r) ← r.align.take 16
  let (check, r) ← r.take 16
  if n + check = 65535 then return (n, r) else throw .invalid

/-- Reads the content of a block of some kind. -/
def block (kind : Nat) (r : Bits) (out : ByteArray) : Progress :=
  match kind with
  | 0 =>
    match plainLength r with
    | .ok (n, r) => plain n r out
    | .error stop => (.error stop, out)
  | 1 => items fixedLiterals fixedDistances (r.total + 1) r out
  | 2 =>
    match codes r with
    | .ok (literals, distances, r) => items literals distances (r.total + 1) r out
    | .error stop => (.error stop, out)
  | _ => (.error .invalid, out)

/-- Reads the head of a block: whether it is the last, and its kind. -/
def blockHead (r : Bits) : Except Stop (Bool × Nat × Bits) := do
  let (last, r) ← r.next
  let (kind, r) ← r.take 2
  return (last == 1, kind, r)

/-- Reads blocks up to the one marked as the last. -/
def blocks : Nat → Bits → ByteArray → Progress
  | 0, r, out => (.ok r, out)
  | fuel + 1, r, out =>
    match blockHead r with
    | .error stop => (.error stop, out)
    | .ok (last, kind, r) =>
      match block kind r out with
      | (.ok r, out) => if last then (.ok r, out) else blocks fuel r out
      | stopped => stopped

def expand (bytes : List UInt8) : Option (List UInt8) :=
  let r : Bits := ⟨⟨bytes.toArray⟩, 0⟩
  match blocks (r.total + 1) r ByteArray.empty with
  | (.error .invalid, _) => none
  | (_, out) => some out.data.toList

/-! ## Wrapped data -/

/-- Expands deflated data behind a header of two bytes, which names the method, the size of the
window, and that nothing has to be known beforehand.  The sum at the end is not checked. -/
def expandWrapped : List UInt8 → Option (List UInt8)
  | method :: flags :: rest =>
    if method.toNat % 16 = 8 ∧ method.toNat / 16 ≤ 7 ∧ flags.toNat / 32 % 2 = 0 ∧
        (method.toNat * 256 + flags.toNat) % 31 = 0 then expand rest
    else none
  | _ => some []

end Inflate
end PaletteBitmap

import PaletteBitmap.Color.Rgba
import PaletteBitmap.Text.Blank

/-!
# Colors as hexadecimal text

A color is written `#RRGGBBAA` with capital digits.  It is read back from three, six or
eight digits of any case, with or without the `#`, and with blank characters around:
`RGB` doubles each digit, `RGB` and `RRGGBB` are fully visible.  A group of two digits may
also be a plus sign and one digit; that is the number grammar the groups are read with.
-/

namespace PaletteBitmap
namespace Color

/-! ## Writing -/

/-- The capital digit of a value below sixteen. -/
def hexDigit (n : Nat) : Char :=
  if n < 10 then Char.ofNat (48 + n) else Char.ofNat (55 + n)

/-- Two capital digits for a byte, the high half first. -/
def hexByte (v : UInt8) : List Char := [hexDigit (v.toNat / 16), hexDigit (v.toNat % 16)]

end Color

/-- The text of a color: `#RRGGBBAA`. -/
def Rgba.text (c : Rgba) : String :=
  String.ofList ('#' :: c.toBytes.flatMap Color.hexByte)

namespace Color

/-! ## Reading -/

inductive HexError where
  /-- Not three, six or eight ASCII characters. -/
  | length
  /-- A group that is no hexadecimal number. -/
  | digit
  deriving DecidableEq, Repr

def HexError.message : HexError → String
  | .length => "invalid hex color length (expected 3, 6 or 8 characters)"
  | .digit => "invalid hex character: invalid digit found in string"

def digitValue? (c : Char) : Option Nat :=
  let n := c.toNat
  if '0' ≤ c ∧ c ≤ '9' then some (n - 48)
  else if 'a' ≤ c ∧ c ≤ 'f' then some (n - 87)
  else if 'A' ≤ c ∧ c ≤ 'F' then some (n - 55)
  else none

/-- One digit, doubled: `F` is `FF`. -/
def readSingle (c : Char) : Except HexError UInt8 :=
  match digitValue? c with
  | some v => .ok (UInt8.ofNat (v * 17))
  | none => .error .digit

/-- A group of two: two digits, or a plus sign and a digit. -/
def readPair (c d : Char) : Except HexError UInt8 :=
  match digitValue? d with
  | none => .error .digit
  | some low =>
    if c = '+' then .ok (UInt8.ofNat low)
    else
      match digitValue? c with
      | some high => .ok (UInt8.ofNat (high * 16 + low))
      | none => .error .digit

/-- The characters of a color text that carry digits: blanks and one `#` taken off. -/
def hexBody (cs : List Char) : List Char :=
  match Text.trim cs with
  | '#' :: rest => rest
  | rest => rest

def readBody (body : List Char) : Except HexError Rgba :=
  if body.any (fun c => 128 ≤ c.toNat) then .error .length
  else
    match body with
    | [r, g, b] => do
      let r ← readSingle r
      let g ← readSingle g
      let b ← readSingle b
      return Rgba.solid r g b
    | [r₁, r₂, g₁, g₂, b₁, b₂] => do
      let r ← readPair r₁ r₂
      let g ← readPair g₁ g₂
      let b ← readPair b₁ b₂
      return Rgba.solid r g b
    | [r₁, r₂, g₁, g₂, b₁, b₂, a₁, a₂] => do
      let r ← readPair r₁ r₂
      let g ← readPair g₁ g₂
      let b ← readPair b₁ b₂
      let a ← readPair a₁ a₂
      return ⟨r, g, b, a⟩
    | _ => .error .length

end Color

def Rgba.ofText (s : String) : Except Color.HexError Rgba :=
  Color.readBody (Color.hexBody s.toList)

end PaletteBitmap

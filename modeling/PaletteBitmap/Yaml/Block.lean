import PaletteBitmap.Yaml.Scalar

/-!
# YAML scalars as indented blocks

A block scalar starts with a bar, which keeps its lines, or an angle bracket, which runs them
together.  Behind the sign may stand what becomes of the breaks at the end and by how much the
lines are indented; without that the first line that is not blank tells the indentation.
-/

namespace PaletteBitmap
namespace Yaml

/-- What becomes of the breaks at the end of a block. -/
inductive Chomping where
  /-- One is kept. -/
  | clip
  /-- All are kept. -/
  | keep
  /-- None is kept. -/
  | strip
  deriving DecidableEq, Repr, Inhabited

namespace Chomping

/-- Reads a sign. -/
def read? (c : Cursor) : Option (Chomping × Cursor) :=
  if c.atChar '+' then some (keep, c.step)
  else if c.atChar '-' then some (strip, c.step)
  else none

end Chomping

structure Block where
  /-- What is read, most recent first, without the last break. -/
  text : List Char := []
  /-- The last break, if there is one. -/
  lead : List Char := []
  /-- The breaks of the blank lines behind it. -/
  trail : List Char := []
  /-- Whether the last line starts with a blank. -/
  blank : Bool := false
  deriving Repr, Inhabited

namespace Block

/-! ## Head -/

/-- Reads by how much the lines are indented: a digit other than zero.  `none` is an error,
`some none` no digit. -/
def increment? (c : Cursor) : Option (Option Nat × Cursor) :=
  match c.rest.head? with
  | some d =>
    if d == '0' then none
    else if d.isDigit then some (some (d.toNat - '0'.toNat), c.step)
    else some (none, c)
  | none => some (none, c)

/-- Reads what stands behind the sign, in either order. -/
def head? (c : Cursor) : Option (Chomping × Option Nat × Cursor) :=
  match Chomping.read? c with
  | some (chomping, next) => do
    let (increment, next) ← increment? next
    return (chomping, increment, next)
  | none => do
    let (increment, next) ← increment? c
    match increment, Chomping.read? next with
    | some _, some (chomping, last) => return (chomping, increment, last)
    | _, _ => return (.clip, increment, next)

/-! ## Blank lines -/

/-- The place behind the spaces that indent a line, as far as the indentation is known. -/
def indented (indent : Option Nat) (c : Cursor) : Cursor :=
  let n := (c.rest.takeWhile (· == ' ')).length
  c.forward (match indent with
    | some i => min n (i - c.column)
    | none => n)

/-- Reads blank lines and the indentation of the line that follows: the breaks and the
rightmost column that was reached.  A tab may not stand where the indentation is not over. -/
def blankLines? (indent : Option Nat) :
    Nat → List Char → Nat → Cursor → Option (List Char × Nat × Cursor)
  | 0, _, _, _ => none
  | fuel + 1, breaks, reached, c =>
    let c := indented indent c
    let reached := max reached c.column
    if c.atChar '\t' && indent.all (c.column < ·) then none
    else
      match c.rest with
      | d :: _ =>
        if isBreak d then blankLines? indent fuel (breaks ++ [d]) reached c.step
        else some (breaks, reached, c)
      | [] => some (breaks, reached, c)

/-! ## Lines -/

/-- The text with the breaks before the next line; `blank` is whether that starts with one.
Lines are run together unless they start with a blank. -/
def joined (literal blank : Bool) (b : Block) : List Char :=
  let breaks :=
    if !literal && !b.blank && !blank && b.lead == ['\n'] then Gap.joinBreaks b.lead b.trail
    else b.lead ++ b.trail
  breaks.reverse ++ b.text

/-- Reads the lines with an indentation. -/
def linesFrom? (literal : Bool) (indent : Nat) : Nat → Block → Cursor → Option (Block × Cursor)
  | 0, _, _ => none
  | fuel + 1, b, c =>
    if c.column ≠ indent || c.atEnd then some (b, c)
    else do
      let blank := c.rest.head?.any isSpace
      let (line, next) := c.span (!isBreak ·)
      let lead := next.rest.take 1
      let (trail, _, next) ← blankLines? (some indent) (next.rest.length + 1) [] 0 next.step
      let text := line.reverse ++ b.joined literal blank
      linesFrom? literal indent fuel ⟨text, lead, trail, blank⟩ next

/-- What a block amounts to. -/
def chomped (chomping : Chomping) (b : Block) : List Char :=
  match chomping with
  | .strip => b.text.reverse
  | .clip => b.text.reverse ++ b.lead
  | .keep => b.text.reverse ++ b.lead ++ b.trail

/-- Reads a block scalar from its sign on.  Its lines are not left of column `floor`. -/
def read? (floor : Nat) (c : Cursor) : Option (Scalar × Cursor) := do
  let literal := c.atChar '|'
  let (chomping, increment, next) ← head? c.step
  let next ← next.endLine?
  let known := increment.map (floor - 1 + ·)
  let (trail, reached, next) ← blankLines? known (next.rest.length + 1) [] 0 next
  let indent := known.getD (max 1 (max floor reached))
  let (b, last) ← linesFrom? literal indent (next.rest.length + 1) { trail := trail } next
  return ({ text := String.ofList (b.chomped chomping),
            style := if literal then .literal else .folded }, last)

end Block

end Yaml
end PaletteBitmap

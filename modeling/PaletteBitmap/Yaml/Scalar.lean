import PaletteBitmap.Yaml.Tag

/-!
# YAML scalars on running lines

A scalar is written plainly, in quotes, or as an indented block.  A plain one ends at a
comment, at a colon before white space and, inside brackets, at the signs that brackets give a
meaning to.  Single quotes keep everything but a doubled quote, double quotes know escapes.
These three run over several lines, which are folded together.
-/

namespace PaletteBitmap
namespace Yaml

/-- How a scalar is written. -/
inductive ScalarStyle where
  | plain
  | quoted
  | literal
  | folded
  deriving DecidableEq, Repr, Inhabited

structure Scalar where
  text : String
  style : ScalarStyle := .plain
  tag : Option Tag := none
  deriving DecidableEq, Repr, Inhabited

namespace Scalar

/-- The scalar that nothing written stands for. -/
def empty : Scalar := { text := "" }

/-! ## Plain scalars -/

/-- The signs that separate things inside brackets. -/
def isFlowSign (c : Char) : Bool :=
  c == ',' || c == '[' || c == ']' || c == '{' || c == '}'

/-- The signs that no plain scalar starts with. -/
def isIndicator (c : Char) : Bool := "-?:,[]{}#&*!|>'\"%@\x60".toList.contains c

/-- Whether a plain scalar starts with these characters. -/
def startsPlain (flow : Bool) : List Char → Bool
  | [] => false
  | c :: rest =>
    if c == '-' then !rest.head?.any isSpace
    else if c == '?' || c == ':' then !flow && !endsWord rest
    else !isIndicator c && !endsWord [c]

/-- Reads characters up to white space or a sign that ends the scalar.  Inside brackets a colon
before a sign is refused. -/
def word? (flow : Bool) : List Char → Option (List Char)
  | [] => some []
  | c :: rest =>
    if endsWord [c] || (c == ':' && endsWord rest) then some []
    else if flow && c == ':' && rest.head?.any (fun d => isFlowSign d || d == '?') then none
    else if flow && isFlowSign c then some []
    else (word? flow rest).map (c :: ·)

/-- Reads on behind a gap, if another word follows: not at a comment, not at a document mark
and, outside brackets, not left of column `floor`.  Without another word the gap is no part of
the scalar.  What is read stands most recent first; the last answer is whether the scalar ended
behind a break. -/
def plainFrom? (flow : Bool) (floor : Nat) :
    Nat → List Char → Gap → Cursor → Option (List Char × Cursor × Bool)
  | 0, _, _, _ => none
  | fuel + 1, read, gap, c =>
    if c.atDocumentMark || c.atChar '#' then some (read, c, !gap.breaks.isEmpty)
    else do
      let word ← word? flow c.rest
      if word.isEmpty then return (read, c, !gap.breaks.isEmpty)
      else
        let read := word.reverse ++ gap.folded.reverse ++ read
        let (gap, next) ← Gap.read? floor (c.forward word.length)
        if !flow && next.column < floor then return (read, next, !gap.breaks.isEmpty)
        else plainFrom? flow floor fuel read gap next

def plain? (flow : Bool) (floor : Nat) (c : Cursor) : Option (Scalar × Cursor × Bool) :=
  if startsPlain flow c.rest then do
    let (read, next, fresh) ← plainFrom? flow floor (c.rest.length + 1) [] {} c
    return ({ text := String.ofList read.reverse }, next, fresh)
  else none

/-! ## Quoted scalars -/

def escape? (c : Char) : Option Char :=
  match c with
  | '0' => some '\x00'
  | 'a' => some '\x07'
  | 'b' => some '\x08'
  | 't' | '\t' => some '\t'
  | 'n' => some '\n'
  | 'v' => some '\x0b'
  | 'f' => some '\x0c'
  | 'r' => some '\r'
  | 'e' => some '\x1b'
  | ' ' => some ' '
  | '"' => some '"'
  | '/' => some '/'
  | '\\' => some '\\'
  | 'N' => some '\u0085'
  | '_' => some '\u00a0'
  | 'L' => some '\u2028'
  | 'P' => some '\u2029'
  | _ => none

/-- How many digits follow a letter after a backslash that gives a character by number. -/
def escapeDigits? (c : Char) : Option Nat :=
  match c with
  | 'x' => some 2
  | 'u' => some 4
  | 'U' => some 8
  | _ => none

/-- The number that digits stand for. -/
def hexNumber? (digits : List Char) : Option Nat :=
  digits.foldlM (fun n c => (Color.digitValue? c).map (n * 16 + ·)) 0

/-- Reads what follows a backslash: the character and how many characters stood for it. -/
def escaped? : List Char → Option (Char × Nat)
  | [] => none
  | c :: rest =>
    match escapeDigits? c with
    | none => (escape? c).map (·, 1)
    | some n => do
      if rest.length < n then none
      else
        let value ← hexNumber? (rest.take n)
        if value.isValidChar then some (Char.ofNat value, n + 1) else none

/-- Reads the inside of quotes up to the closing one, most recent character first. -/
def quotedFrom? (quote : Char) : Nat → List Char → Cursor → Option (List Char × Cursor)
  | 0, _, _ => none
  | fuel + 1, read, c =>
    if c.atDocumentMark then none
    else
      match c.rest with
      | [] => none
      | d :: rest =>
        if quote == '\'' && d == quote && rest.head? == some quote then
          quotedFrom? quote fuel (quote :: read) (c.forward 2)
        else if d == quote then some (read, c.step)
        else if quote == '"' && d == '\\' then
          if rest.head?.any isBreak then do
            -- An escaped break joins the lines without a space.
            let (gap, next) ← Gap.read? 0 (c.forward 2)
            quotedFrom? quote fuel (gap.breaks.reverse ++ read) next
          else do
            let (e, n) ← escaped? rest
            quotedFrom? quote fuel (e :: read) (c.forward (n + 1))
        else if endsWord [d] then do
          let (gap, next) ← Gap.read? 0 c
          quotedFrom? quote fuel (gap.folded.reverse ++ read) next
        else quotedFrom? quote fuel (d :: read) c.step

def quoted? (c : Cursor) : Option (Scalar × Cursor) :=
  match c.rest with
  | [] => none
  | quote :: _ => do
    let (read, next) ← quotedFrom? quote (c.rest.length + 1) [] c.step
    return ({ text := String.ofList read.reverse, style := .quoted }, next)

end Scalar

end Yaml
end PaletteBitmap

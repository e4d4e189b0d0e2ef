import PaletteBitmap.Yaml.Block

/-!
# Tokens of YAML

A text is a sequence of tokens: scalars, the signs between them, and the starts and ends of
blocks, which indentation tells.  `Token.ofText?` finds them all.

That something is a key shows only at the colon behind it.  So a `Lexer` remembers where a key
may have started, once for each open bracket and once outside, and puts the token of a key
there when it meets the colon.  The colon has to be on the same line and not too far away.
-/

namespace PaletteBitmap
namespace Yaml

inductive Token where
  | directive (d : Directive)
  | documentStart
  | documentEnd
  | blockList
  | blockMap
  | blockEnd
  | openList
  | closeList
  | openMap
  | closeMap
  /-- An item of a block list follows. -/
  | dash
  | comma
  | key
  | value
  | reference (name : String)
  | anchor (name : String)
  | tag (t : Tag.Written)
  | scalar (s : Scalar)
  deriving DecidableEq, Repr, Inhabited

/-! ## Keys -/

/-- A place where a key may have started. -/
structure Candidate where
  place : Place
  /-- How many tokens stand before it. -/
  index : Nat
  /-- Whether nothing but a key can stand there. -/
  required : Bool
  deriving DecidableEq, Repr, Inhabited

namespace Candidate

/-- How many bytes may stand before the colon of a key. -/
def maxLength : Nat := 1024

/-- Whether a place is near enough for the colon of the key. -/
def reaches (k : Candidate) (p : Place) : Bool :=
  k.place.line == p.line && p.offset ≤ k.place.offset + maxLength

/-- Gives a candidate up at a place that is too far away, which a required one does not
allow. -/
def keep? (p : Place) : Option Candidate → Option (Option Candidate)
  | none => some none
  | some k => if k.reaches p then some (some k) else if k.required then none else some none

end Candidate

/-! ## Lexers -/

/-- A text that is being taken apart. -/
structure Lexer where
  cursor : Cursor
  /-- The tokens found so far, most recent first. -/
  tokens : List Token := []
  /-- The columns of the open blocks, innermost first. -/
  blocks : List Nat := []
  /-- Whether a key or a dash may stand here. -/
  fresh : Bool := true
  /-- Where a key may have started. -/
  candidate : Option Candidate := none
  /-- Where keys may have started around each open bracket, innermost first. -/
  outer : List (Option Candidate) := []
  deriving Repr, Inhabited

namespace Lexer

/-- Whether a bracket is open. -/
def inFlow (l : Lexer) : Bool := !l.outer.isEmpty

/-- The leftmost column of what belongs to the innermost block. -/
def floor (l : Lexer) : Nat :=
  match l.blocks with
  | [] => 0
  | column :: _ => column + 1

/-! ### Steps -/

def add (t : Token) (l : Lexer) : Lexer := { l with tokens := t :: l.tokens }

/-- Adds a token behind the first `n`. -/
def addAt (n : Nat) (t : Token) (l : Lexer) : Lexer :=
  { l with tokens := l.tokens.insertIdx (l.tokens.length - n) t }

/-- Goes on to a place where a key may start or not. -/
def goTo (cursor : Cursor) (fresh : Bool) (l : Lexer) : Lexer :=
  { l with cursor := cursor, fresh := fresh }

/-- Adds the token of the next `n` characters. -/
def sign (t : Token) (n : Nat) (fresh : Bool) (l : Lexer) : Lexer :=
  (l.add t).goTo (l.cursor.forward n) fresh

/-- No key starts before this place, as none has to. -/
def dropKey? (l : Lexer) : Option Lexer :=
  if l.candidate.any (·.required) then none else some { l with candidate := none }

/-- Remembers that a key may start here.  In the column of the open block nothing else may. -/
def markKey? (l : Lexer) : Option Lexer :=
  if !l.fresh then some l
  else do
    let l ← l.dropKey?
    let required := !l.inFlow && l.floor == l.cursor.column + 1
    return { l with candidate := some ⟨l.cursor.place, l.tokens.length, required⟩ }

/-- Gives up the candidates that are too far away. -/
def forget? (l : Lexer) : Option Lexer := do
  let candidate ← Candidate.keep? l.cursor.place l.candidate
  let outer ← l.outer.mapM (Candidate.keep? l.cursor.place)
  return { l with candidate := candidate, outer := outer }

/-! ### Blocks -/

/-- Opens a block in a column that lies right of the open one, with its token behind the first
`n`. -/
def openBlock (column n : Nat) (t : Token) (l : Lexer) : Lexer :=
  if l.inFlow || column < l.floor then l
  else { l.addAt n t with blocks := column :: l.blocks }

/-- Opens a block here. -/
def openHere (t : Token) (l : Lexer) : Lexer :=
  l.openBlock l.cursor.column l.tokens.length t

def closeBlocks (f : Nat → Bool) (l : Lexer) : Lexer :=
  if l.inFlow then l
  else
    let closed := l.blocks.takeWhile f
    { l with
      tokens := List.replicate closed.length .blockEnd ++ l.tokens
      blocks := l.blocks.drop closed.length }

/-- Ends everything at the head or end of a document. -/
def endDocument? (l : Lexer) : Option Lexer := (l.closeBlocks fun _ => true).dropKey?

/-! ### Tokens -/

def openBracket? (t : Token) (l : Lexer) : Option Lexer := do
  let l ← l.markKey?
  return { l.sign t 1 true with candidate := none, outer := l.candidate :: l.outer }

def closeBracket? (t : Token) (l : Lexer) : Option Lexer := do
  let l ← l.dropKey?
  let l := l.sign t 1 false
  return match l.outer with
    | [] => l
    | candidate :: outer => { l with candidate := candidate, outer := outer }

def dash? (l : Lexer) : Option Lexer :=
  if l.inFlow || l.fresh then do
    let l ← (l.openHere .blockList).dropKey?
    return l.sign .dash 1 true
  else none

/-- The sign in front of a key. -/
def key? (l : Lexer) : Option Lexer :=
  if l.inFlow || l.fresh then do
    let l ← (l.openHere .blockMap).dropKey?
    return l.sign .key 1 !l.inFlow
  else none

/-- The colon in front of a value: what started at the candidate is its key. -/
def value? (l : Lexer) : Option Lexer :=
  match l.candidate with
  | some k =>
    let l := { l.addAt k.index .key with candidate := none }
    some ((l.openBlock k.place.column k.index .blockMap).sign .value 1 false)
  | none =>
    if l.inFlow || l.fresh then some ((l.openHere .blockMap).sign .value 1 !l.inFlow) else none

def directive? (l : Lexer) : Option Lexer := do
  let l ← l.endDocument?
  let (d, next) ← Directive.read? l.cursor
  return (l.add (.directive d)).goTo next false

/-- A mark that begins or ends a document. -/
def documentMark? (t : Token) (l : Lexer) : Option Lexer := do
  let l ← l.endDocument?
  return l.sign t 3 false

/-- Something that may be or start a key. -/
def word? (read : Cursor → Option (Token × Cursor)) (l : Lexer) : Option Lexer := do
  let l ← l.markKey?
  let (t, next) ← read l.cursor
  return (l.add t).goTo next false

/-- A plain scalar; one that ends behind a break starts the next line afresh. -/
def plain? (l : Lexer) : Option Lexer := do
  let l ← l.markKey?
  let (s, next, fresh) ← Scalar.plain? l.inFlow l.floor l.cursor
  return (l.add (.scalar s)).goTo next fresh

def block? (l : Lexer) : Option Lexer := do
  let l ← l.dropKey?
  let (s, next) ← Block.read? l.floor l.cursor
  return (l.add (.scalar s)).goTo next true

/-- Finds the token that starts with a character. -/
def token? (l : Lexer) (c : Char) : Option Lexer :=
  let wordEnds := l.cursor.step.atWordEnd
  if l.cursor.column = 0 ∧ c = '%' then l.directive?
  else if l.cursor.atMark '-' then l.documentMark? .documentStart
  else if l.cursor.atMark '.' then l.documentMark? .documentEnd
  else if c = '[' then l.openBracket? .openList
  else if c = '{' then l.openBracket? .openMap
  else if c = ']' then l.closeBracket? .closeList
  else if c = '}' then l.closeBracket? .closeMap
  else if c = ',' then do return (← l.dropKey?).sign .comma 1 true
  else if c = '-' ∧ wordEnds then l.dash?
  else if c = '?' ∧ (l.inFlow ∨ wordEnds) then l.key?
  else if c = ':' ∧ (l.inFlow ∨ wordEnds) then l.value?
  else if c = '*' then l.word? fun at' => (name? at').map fun (n, next) => (.reference n, next)
  else if c = '&' then l.word? fun at' => (name? at').map fun (n, next) => (.anchor n, next)
  else if c = '!' then
    l.word? fun at' => (Tag.read? l.inFlow at').map fun (t, next) => (.tag t, next)
  else if (c = '|' ∨ c = '>') ∧ !l.inFlow then l.block?
  else if c = '\'' ∨ c = '"' then
    l.word? fun at' => (Scalar.quoted? at').map fun (s, next) => (.scalar s, next)
  else l.plain?

/-- Finds all tokens from here on, most recent first. -/
def tokens? : Nat → Lexer → Option (List Token)
  | 0, _ => none
  | fuel + 1, l => do
    let (cursor, fresh) := l.cursor.skip l.inFlow l.fresh
    let l ← (l.goTo cursor fresh).forget?
    let l := l.closeBlocks (cursor.column < ·)
    match cursor.rest with
    | [] => return (← l.endDocument?).tokens
    | c :: _ => tokens? fuel (← l.token? c)

end Lexer

namespace Token

def ofText? (text : String) : Option (List Token) :=
  let cs := text.toList
  if cs.all isAllowed then
    (Lexer.tokens? (cs.length + 1) { cursor := Cursor.ofText cs }).map List.reverse
  else none

end Token

end Yaml
end PaletteBitmap

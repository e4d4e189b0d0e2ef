/-!
# Places in a YAML text

A `Place` is a line, a column and the number of bytes that stand before it on its line; a
`Cursor` is a place together with what is left to read.  `Cursor.step` takes one character,
and everything that moves a cursor is a number of steps.

Line breaks are brought to one form before reading, so that a break is one character.
-/

namespace PaletteBitmap
namespace Yaml

/-! ## Characters -/

/-- The characters that end a line. -/
def isBreak (c : Char) : Bool := c == '\n' || c == '\u2028' || c == '\u2029'

def isSpace (c : Char) : Bool := c == ' ' || c == '\t'

/-- The letters, digits and signs that names are made of. -/
def isNameChar (c : Char) : Bool := c.isAlphanum || c == '-' || c == '_'

/-- The characters that a text may hold. -/
def isAllowed (c : Char) : Bool :=
  let n := c.toNat
  n == 0x09 || n == 0x0A || n == 0x0D || (0x20 ≤ n && n ≤ 0x7E) || n == 0x85 ||
    (0xA0 ≤ n && n ≤ 0xFFFD) || 0x10000 ≤ n

/-- The byte order mark, passed over where it begins a line. -/
def byteOrderMark : Char := '\uFEFF'

def oneBreak : List Char → List Char
  | '\r' :: '\n' :: rest => '\n' :: oneBreak rest
  | '\r' :: rest => '\n' :: oneBreak rest
  | '\u0085' :: rest => '\n' :: oneBreak rest
  | c :: rest => c :: oneBreak rest
  | [] => []

/-- Whether a text is at an end, a break or a space. -/
def endsWord : List Char → Bool
  | [] => true
  | c :: _ => isSpace c || isBreak c

/-! ## Places -/

/-- A place in a text. -/
structure Place where
  line : Nat := 0
  /-- The characters before the place on its line. -/
  column : Nat := 0
  /-- The bytes before the place on its line. -/
  offset : Nat := 0
  deriving DecidableEq, Repr, Inhabited

def Place.after (p : Place) (c : Char) : Place :=
  if isBreak c then ⟨p.line + 1, 0, 0⟩ else ⟨p.line, p.column + 1, p.offset + c.utf8Size⟩

/-! ## Cursors -/

/-- A place in a text and what is left to read there. -/
structure Cursor where
  rest : List Char
  place : Place := {}
  deriving Repr, Inhabited

namespace Cursor

/-- The place where a text starts. -/
def ofText (cs : List Char) : Cursor := { rest := oneBreak cs }

/-- The column of the place. -/
def column (c : Cursor) : Nat := c.place.column

def step (c : Cursor) : Cursor :=
  match c.rest with
  | [] => c
  | d :: rest => ⟨rest, c.place.after d⟩

/-- The place some characters on. -/
def forward (c : Cursor) : Nat → Cursor
  | 0 => c
  | n + 1 => c.step.forward n

/-- The characters of a class that stand next, and the place behind them. -/
def span (c : Cursor) (f : Char → Bool) : List Char × Cursor :=
  let word := c.rest.takeWhile f
  (word, c.forward word.length)

/-- The place behind the characters of a class. -/
def skipWhile (c : Cursor) (f : Char → Bool) : Cursor := (c.span f).2

def atEnd (c : Cursor) : Bool := c.rest.isEmpty

def atChar (c : Cursor) (d : Char) : Bool := c.rest.head? == some d

def atLineEnd (c : Cursor) : Bool := c.rest.head?.all isBreak

/-- Whether white space or the end stands next. -/
def atWordEnd (c : Cursor) : Bool := endsWord c.rest

/-- Whether a mark of three equal characters stands at the start of a line. -/
def atMark (c : Cursor) (mark : Char) : Bool :=
  c.column == 0 && c.rest.take 3 == [mark, mark, mark] && endsWord (c.rest.drop 3)

/-- Whether a mark that begins or ends a document stands here. -/
def atDocumentMark (c : Cursor) : Bool := c.atMark '-' || c.atMark '.'

/-! ## Skipping -/

/-- Skips blanks, breaks and comments, and tells whether a key may start where something
stands next.  Outside brackets each line starts afresh; a tab may not stand where a key could
start, so it is not skipped there. -/
def skipFrom (flow comment : Bool) (place : Place) (fresh : Bool) : List Char → Cursor × Bool
  | [] => (⟨[], place⟩, fresh)
  | c :: rest =>
    if isBreak c then skipFrom flow false (place.after c) (fresh || !flow) rest
    else if comment || c == '#' then skipFrom flow true (place.after c) fresh rest
    else if c == ' ' || (c == '\t' && (flow || !fresh)) ||
        (c == byteOrderMark && place.column == 0) then
      skipFrom flow false (place.after c) fresh rest
    else (⟨c :: rest, place⟩, fresh)

/-- The next place at which something stands, and whether a key may start there. -/
def skip (c : Cursor) (flow fresh : Bool) : Cursor × Bool :=
  skipFrom flow false c.place fresh c.rest

/-- The place of the next line, if nothing but blanks and a comment is left on this one. -/
def endLine? (c : Cursor) : Option Cursor :=
  let c := c.skipWhile isSpace
  let c := if c.atChar '#' then c.skipWhile (!isBreak ·) else c
  if c.atLineEnd then some c.step else none

end Cursor

/-! ## Gaps between words -/

/-- The white space between two words of a scalar. -/
structure Gap where
  /-- The blanks before the first break. -/
  blanks : List Char := []
  /-- The breaks. -/
  breaks : List Char := []
  deriving Repr, Inhabited

namespace Gap

/-- Breaks run together: one is a space, and of more the first is left out, unless it is one
of the separators that Unicode has. -/
def joinBreaks : List Char → List Char → List Char
  | first, more =>
    if first = ['\n'] then if more.isEmpty then [' '] else more else first ++ more

/-- What a gap amounts to in the value: the blanks if there is no break, otherwise the breaks
run together. -/
def folded (g : Gap) : List Char :=
  match g.breaks with
  | [] => g.blanks
  | first :: more => joinBreaks [first] more

/-- Reads a gap.  After a break a tab may not stand left of column `floor`. -/
def readFrom? (floor : Nat) (place : Place) (g : Gap) : List Char → Option (Gap × Cursor)
  | [] => some (g, ⟨[], place⟩)
  | c :: rest =>
    if isBreak c then
      readFrom? floor (place.after c) { g with breaks := g.breaks ++ [c] } rest
    else if isSpace c then
      if g.breaks.isEmpty then
        readFrom? floor (place.after c) { g with blanks := g.blanks ++ [c] } rest
      else if c == '\t' && place.column < floor then none
      else readFrom? floor (place.after c) g rest
    else some (g, ⟨c :: rest, place⟩)

/-- Reads the gap at a place. -/
def read? (floor : Nat) (c : Cursor) : Option (Gap × Cursor) :=
  readFrom? floor c.place {} c.rest

end Gap

end Yaml
end PaletteBitmap

/-!
# Paths

A path is a text; what it means are its parts.  Between slashes stand names, `.` for "here"
and `..` for "up"; a slash in front starts from the root.  Two readings of the parts are used:

* `steps` is what a walk through the tree follows: every part counts, and a slash at the end
  asks for a directory;
* `parts` is what paths are compared by: a `.` counts only as the very first part, so that
  `a//b`, `a/./b` and `a/b/` have the same parts.
-/

namespace PaletteBitmap

structure Path where
  text : String
  deriving DecidableEq, Repr, Inhabited

inductive Part where
  | here
  | up
  | name (n : String)
  deriving DecidableEq, Repr, Inhabited

namespace Part

/-- The most bytes that the name of an entry has. -/
def maxNameBytes : Nat := 255

/-- Whether a part is a name that no entry can have. -/
def isTooLong : Part → Bool
  | name n => maxNameBytes < n.utf8ByteSize
  | _ => false

/-- Whether a part is a name with a zero in it. -/
def hasZero : Part → Bool
  | name n => n.toList.contains '\x00'
  | _ => false

/-- The part that a text between slashes stands for, if it stands for any. -/
def ofText? (s : String) : Option Part :=
  if s = "" then none
  else if s = "." then some here
  else if s = ".." then some up
  else some (name s)

end Part

namespace Path

/-- The texts between slashes. -/
def splitSlash : List Char → List (List Char)
  | [] => [[]]
  | c :: cs =>
    if c = '/' then [] :: splitSlash cs
    else
      match splitSlash cs with
      | [] => [[c]]
      | s :: ss => (c :: s) :: ss

/-- A path has less bytes than this. -/
def maxBytes : Nat := 4096

def isTooLong (p : Path) : Bool := maxBytes ≤ p.text.utf8ByteSize

def hasZero (p : Path) : Bool := p.text.toList.contains '\x00'

def isAbsolute (p : Path) : Bool := p.text.toList.head? == some '/'

def endsInSlash (p : Path) : Bool := p.text.toList.getLast? == some '/'

/-- All parts, as they stand. -/
def allParts (p : Path) : List Part :=
  (splitSlash p.text.toList).filterMap fun s => Part.ofText? (String.ofList s)

/-- What a walk follows. -/
def steps (p : Path) : List Part :=
  if p.endsInSlash then p.allParts ++ [.here] else p.allParts

/-- What paths are compared by. -/
def parts (p : Path) : List Part :=
  match p.allParts with
  | [] => []
  | first :: rest =>
    let rest := rest.filter (· ≠ .here)
    if first = .here ∧ p.text.toList.head? = some '/' then rest else first :: rest

def same (p q : Path) : Bool := p.isAbsolute == q.isAbsolute && p.parts == q.parts

/-- The name a path ends in, if it ends in a name. -/
def fileName? (p : Path) : Option String :=
  match p.parts.getLast? with
  | some (.name n) => some n
  | _ => none

/-- The parts of the directory that a path is in. -/
def parentParts (p : Path) : List Part := p.parts.dropLast

end Path

end PaletteBitmap

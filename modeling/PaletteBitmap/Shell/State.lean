import PaletteBitmap.Conversion.External
import PaletteBitmap.Shell.Script

/-!
# The state of a running script

What a script can see and change: the files, its parameters and variables, where its output
and its complaints go, the status of the last command, and whether it has ended.  Here words
get their values.
-/

namespace PaletteBitmap
namespace Shell

/-- Where a stream leads. -/
inductive Sink where
  | nowhere
  | complaints
  | file (p : Path)
  deriving DecidableEq, Repr, Inhabited

/-- The state of a running script. -/
structure State where
  space : Workspace
  /-- The name the script is called by. -/
  name : String
  params : List String := []
  bindings : List (String × String) := []
  /-- The status of the last command. -/
  status : Nat := 0
  input : List UInt8 := []
  out : Sink := .nowhere
  err : Sink := .complaints
  complaints : List UInt8 := []
  /-- How the script has ended, if it has. -/
  ended : Option ExitStatus := none
  deriving Repr, Inhabited

namespace State

/-! ## Streams -/

def send (s : State) (sink : Sink) (data : List UInt8) : State :=
  match sink with
  | .nowhere => s
  | .complaints => { s with complaints := s.complaints ++ data }
  | .file p =>
    match s.space.append p data with
    | .ok w => { s with space := w }
    | .error _ => s

def put (s : State) (data : List UInt8) : State := s.send s.out data

/-- Writes a line of complaint. -/
def complain (s : State) (text : String) : State :=
  s.send s.err (text ++ "\n").toUTF8.toList

def withStatus (s : State) (n : Nat) : State := { s with status := n }

/-- A command that failed with a complaint. -/
def fail (s : State) (n : Nat) (text : String) : State := (s.complain text).withStatus n

/-- The end of the script with the status of its last command. -/
def stop (s : State) : State := { s with ended := some (.code (s.status % 256)) }

/-! ## Values -/

/-- The number of the process that runs a script. -/
def process : String := "2"

/-- The value of a variable, or of a parameter or other sign. -/
def value (s : State) (name : String) : String :=
  match name with
  | "#" => toString s.params.length
  | "?" => toString s.status
  | "$" => process
  | "0" => s.name
  | _ =>
    match name.toNat? with
    | some n => s.params.getD (n - 1) ""
    | none => (s.bindings.lookup name).getD ""

/-- Whether a text is of a pattern, in which a star stands for any text and a question mark for
any character. -/
def isMatch : List Char → List Char → Bool
  | [], cs => cs.isEmpty
  | '*' :: p, cs =>
    isMatch p cs || match cs with
      | [] => false
      | _ :: rest => isMatch ('*' :: p) rest
  | q :: p, cs =>
    match cs with
    | [] => false
    | c :: rest => (q == '?' || q == c) && isMatch p rest
termination_by p cs => p.length + cs.length

/-- Cuts the match of a pattern off a text. -/
def cut (c : Cut) (cs : List Char) : List Char :=
  let sizes := List.range (cs.length + 1)
  let sizes := if c.longest then sizes.reverse else sizes
  if c.atEnd then
    match sizes.find? fun n => isMatch c.pattern (cs.drop (cs.length - n)) with
    | some n => cs.take (cs.length - n)
    | none => cs
  else
    match sizes.find? fun n => isMatch c.pattern (cs.take n) with
    | some n => cs.drop n
    | none => cs

/-- The value of a variable after a cut, if there is one. -/
def cutValue (s : State) (name : String) : Option Cut → List Char
  | none => (s.value name).toList
  | some c => cut c (s.value name).toList

/-! ## Filling in words -/

/-- The words made so far, and the one being made. -/
structure Fields where
  done : List String := []
  current : Option (List Char) := none

namespace Fields

def add (f : Fields) (cs : List Char) : Fields :=
  { f with current := some (f.current.getD [] ++ cs) }

/-- Ends the word being made, if there is one. -/
def close (f : Fields) : Fields :=
  match f.current with
  | some cs => { done := f.done ++ [String.ofList cs] }
  | none => f

/-- Adds characters, of which blanks end words. -/
def addSplit (f : Fields) (cs : List Char) : Fields :=
  cs.foldl (fun f c => if c == ' ' || c == '\t' || c == '\n' then f.close else f.add [c]) f

/-- Adds several texts, each the start of a new word but the first. -/
def addEach (add : Fields → List Char → Fields) (f : Fields) : List String → Fields
  | [] => f
  | t :: ts => ts.foldl (fun f t => add f.close t.toList) (add f t.toList)

end Fields

/-- Adds a part of a word. -/
def addPiece (s : State) (f : Fields) : Piece → Fields
  | .text _ cs => f.add cs
  | .value true "@" _ => Fields.addEach Fields.add f s.params
  | .value true "*" _ => f.add (" ".intercalate s.params).toList
  | .value true name c => f.add (s.cutValue name c)
  | .value false name c =>
    if name == "@" || name == "*" then Fields.addEach Fields.addSplit f s.params
    else f.addSplit (s.cutValue name c)

def fields (s : State) (w : Word) : List String := (w.foldl s.addPiece {}).close.done

/-- The text of a word where one word is expected. -/
def text (s : State) (w : Word) : String :=
  " ".intercalate (s.fields (w.map fun
    | .value _ name c => .value true name c
    | .text _ cs => .text true cs))

end State

end Shell
end PaletteBitmap

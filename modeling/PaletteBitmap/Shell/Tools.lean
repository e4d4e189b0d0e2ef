import PaletteBitmap.Shell.State

/-!
# The programs of the shell

What the commands do that scripts are made of: writing text, comparing, and handling files.
A tool takes its arguments and changes the state; its status is part of it.
-/

namespace PaletteBitmap
namespace Shell
namespace Tool

/-! ## Writing text -/

/-- The byte that a letter after a backslash stands for. -/
def escape? (c : Char) : Option UInt8 :=
  match c with
  | '\\' => some 92
  | 'a' => some 7
  | 'b' => some 8
  | 'f' => some 12
  | 'n' => some 10
  | 'r' => some 13
  | 't' => some 9
  | 'v' => some 11
  | _ => none

/-- Whether a character is an octal digit. -/
def isOctal (c : Char) : Bool := '0' ≤ c && c ≤ '7'

/-- Up to some octal digits, and the rest. -/
def octal (most : Nat) (cs : List Char) : List Char × List Char :=
  let digits := (cs.take most).takeWhile isOctal
  (digits, cs.drop digits.length)

def octalByte (digits : List Char) : UInt8 :=
  UInt8.ofNat (digits.foldl (fun n c => n * 8 + (c.toNat - 48)) 0)

def charBytes (c : Char) : List UInt8 := (String.singleton c).toUTF8.toList

/-- Reads what follows a backslash.  Octal digits follow it at once, or after a zero if
`zero` is set. -/
def readEscape (zero : Bool) (cs : List Char) : List UInt8 × List Char :=
  match cs with
  | [] => ([92], [])
  | c :: rest =>
    if isOctal c && (!zero || c == '0') then
      let (digits, rest) := if zero then octal 3 rest else octal 3 cs
      ([octalByte digits], rest)
    else
      match escape? c with
      | some b => ([b], rest)
      | none => (92 :: charBytes c, rest)

/-- The bytes of a text with escapes, and whether it asks to stop there. -/
def unescape : Nat → List Char → List UInt8 × Bool
  | 0, _ => ([], false)
  | fuel + 1, cs =>
    match cs with
    | [] => ([], false)
    | '\\' :: 'c' :: _ => ([], true)
    | '\\' :: rest =>
      let (bytes, rest) := readEscape true rest
      let (more, stopped) := unescape fuel rest
      (bytes ++ more, stopped)
    | c :: rest =>
      let (more, stopped) := unescape fuel rest
      (charBytes c ++ more, stopped)

def echo (s : State) (args : List String) : State :=
  let (line, args) := match args with
    | "-n" :: rest => (false, rest)
    | _ => (true, args)
  let t := (" ".intercalate args).toList
  let (bytes, stopped) := unescape (t.length + 1) t
  (s.put (bytes ++ if line && !stopped then [10] else [])).withStatus 0

/-- The text of an argument in a given form, if the form is known. -/
def converted? (form : Char) (arg : String) : Option (List UInt8) :=
  match form with
  | 's' => some arg.toUTF8.toList
  | 'b' => some (unescape (arg.length + 1) arg.toList).1
  | 'c' => some (arg.toUTF8.toList.take 1)
  | 'd' | 'i' | 'u' =>
    some (if arg = "" then "0" else arg).toUTF8.toList
  | _ => none

/-- Writes a format once; yields the bytes, the arguments left, and whether any was used. -/
def format : Nat → List Char → List String → Bool → List UInt8 × List String × Bool
  | 0, _, args, used => ([], args, used)
  | fuel + 1, cs, args, used =>
    match cs with
    | [] => ([], args, used)
    | '%' :: '%' :: rest =>
      let (more, args, used) := format fuel rest args used
      (37 :: more, args, used)
    | '%' :: form :: rest =>
      match converted? form (args.headD "") with
      | some bytes =>
        let (more, args, used) := format fuel rest args.tail (used || !args.isEmpty)
        (bytes ++ more, args, used)
      | none =>
        let (more, args, used) := format fuel rest args used
        (37 :: charBytes form ++ more, args, used)
    | '\\' :: rest =>
      let (bytes, rest) := readEscape false rest
      let (more, args, used) := format fuel rest args used
      (bytes ++ more, args, used)
    | c :: rest =>
      let (more, args, used) := format fuel rest args used
      (charBytes c ++ more, args, used)

/-- Writes a format until all arguments are used. -/
def formatAll (cs : List Char) : Nat → List String → List UInt8
  | 0, _ => []
  | fuel + 1, args =>
    let (bytes, left, used) := format (cs.length + 1) cs args false
    if used && !left.isEmpty then bytes ++ formatAll cs fuel left else bytes

def printf (s : State) : List String → State
  | [] => s.fail 2 s!"{s.name}: 1: printf: usage: printf format [arg ...]"
  | f :: args => (s.put (formatAll f.toList (args.length + 1) args)).withStatus 0

/-! ## Comparing -/

/-- What stands at a path, without following a link in its last part if `last` is not set. -/
def standing? (w : Workspace) (follow : Bool) (p : String) : Option Entry :=
  if follow then (w.find ⟨p⟩).toOption.map (·.2)
  else (w.slot ⟨p⟩).toOption.bind w.tree.get?

/-- The answer of a question about one text. -/
def unary? (w : Workspace) (question arg : String) : Option Bool :=
  match question with
  | "-n" => some (arg ≠ "")
  | "-z" => some (arg = "")
  | "-e" | "-r" | "-w" => some (standing? w true arg).isSome
  | "-f" => some (w.isFile ⟨arg⟩)
  | "-d" => some (standing? w true arg == some .dir)
  | "-s" => some ((w.read ⟨arg⟩).toOption.any (!·.isEmpty))
  | "-h" | "-L" => some (match standing? w false arg with
      | some (.link _) => true
      | _ => false)
  | _ => none

/-- The answer of a question about two texts. -/
def binary? (question a b : String) : Option Bool :=
  match question with
  | "=" => some (a = b)
  | "!=" => some (a ≠ b)
  | _ => do
    let x ← a.toInt?
    let y ← b.toInt?
    match question with
    | "-eq" => some (x = y)
    | "-ne" => some (x ≠ y)
    | "-lt" => some (x < y)
    | "-le" => some (x ≤ y)
    | "-gt" => some (y < x)
    | "-ge" => some (y ≤ x)
    | _ => none

/-- The answer of a condition. -/
def condition? (w : Workspace) : List String → Option Bool
  | [] => some false
  | [a] => some (a ≠ "")
  | ["!", a] => some (a = "")
  | [q, a] => unary? w q a
  | ["!", q, a] => (unary? w q a).map (!·)
  | [a, q, b] => binary? q a b
  | ["!", a, q, b] => (binary? q a b).map (!·)
  | _ => none

def test (s : State) (args : List String) : State :=
  match condition? s.space args with
  | some true => s.withStatus 0
  | some false => s.withStatus 1
  | none => s.fail 2 s!"{s.name}: 1: test: unexpected operator"

/-! ## Handling files -/

/-- Goes on with another workspace, or fails. -/
def change (s : State) (complaint : String) : Except FileError Workspace → State
  | .ok w => { s with space := w, status := 0 }
  | .error e => s.fail 1 (complaint ++ ": " ++ e.reason)

/-- Where a file goes: into a directory under its own name, or to a path. -/
def target (w : Workspace) (source destination : String) : Path :=
  if standing? w true destination == some .dir then
    ⟨destination ++ "/" ++ ((Path.fileName? ⟨source⟩).getD "")⟩
  else ⟨destination⟩

def copy (s : State) (source destination : String) : State :=
  match s.space.read ⟨source⟩ with
  | .error .isADirectory => s.fail 1 s!"cp: -r not specified; omitting directory '{source}'"
  | .error e => s.fail 1 s!"cp: cannot stat '{source}': {e.reason}"
  | .ok data =>
    let p := target s.space source destination
    change s s!"cp: cannot create regular file '{p.text}'" (s.space.write p data)

def move (s : State) (source destination : String) : State :=
  match s.space.slot ⟨source⟩ with
  | .error e => s.fail 1 s!"mv: cannot stat '{source}': {e.reason}"
  | .ok l =>
    if (s.space.tree.get? l).isNone then
      s.fail 1 s!"mv: cannot stat '{source}': {FileError.notFound.reason}"
    else
      let p := target s.space source destination
      change s s!"mv: cannot move '{source}' to '{p.text}'" (s.space.moveTo l p)

/-- Removes a file, or a directory with all that is in it. -/
def remove (s : State) (force deep : Bool) (p : String) : State :=
  match s.space.slot ⟨p⟩ with
  | .error e => if force then s else s.fail 1 s!"rm: cannot remove '{p}': {e.reason}"
  | .ok l =>
    match s.space.tree.get? l with
    | none =>
      if force then s else s.fail 1 s!"rm: cannot remove '{p}': {FileError.notFound.reason}"
    | some .dir =>
      if deep then { s with space := s.space.clear l }
      else s.fail 1 s!"rm: cannot remove '{p}': {FileError.isADirectory.reason}"
    | some _ => { s with space := s.space.discard l }

def makeDirectory (s : State) (p : String) : State :=
  match s.space.slot ⟨if p.endsWith "/" then (p.dropEnd 1).toString else p⟩ with
  | .error e => s.fail 1 s!"mkdir: cannot create directory '{p}': {e.reason}"
  | .ok l =>
    if (s.space.tree.get? l).isSome then
      s.fail 1 s!"mkdir: cannot create directory '{p}': File exists"
    else { s with space := s.space.withTree (s.space.tree.put l .dir) }

def link (s : State) (goal p : String) : State :=
  let p := (target s.space goal p).text
  match s.space.slot ⟨p⟩ with
  | .error e => s.fail 1 s!"ln: failed to create symbolic link '{p}': {e.reason}"
  | .ok l =>
    if (s.space.tree.get? l).isSome then
      s.fail 1 s!"ln: failed to create symbolic link '{p}': File exists"
    else { s with space := s.space.withTree (s.space.tree.put l (.link ⟨goal⟩)), status := 0 }

def show' (s : State) (p : String) : State :=
  if p = "-" then s.put s.input
  else
    match s.space.read ⟨p⟩ with
    | .ok data => s.put data
    | .error e => s.fail 1 s!"cat: {p}: {e.reason}"

/-- Writes the first bytes of a file, or as many zero bytes. -/
def head (s : State) (count file : String) : State :=
  match count.toNat? with
  | none => s.fail 1 s!"head: invalid number of bytes: '{count}'"
  | some n =>
    if file = "/dev/zero" then (s.put (List.replicate n 0)).withStatus 0
    else
      match s.space.read ⟨file⟩ with
      | .ok data => (s.put (data.take n)).withStatus 0
      | .error e => s.fail 1 s!"head: cannot open '{file}' for reading: {e.reason}"

/-- Makes an empty file where there is none. -/
def touch (s : State) (p : String) : State :=
  if (standing? s.space true p).isSome then s
  else
    match s.space.write ⟨p⟩ [] with
    | .ok w => { s with space := w }
    | .error e => s.fail 1 s!"touch: cannot touch '{p}': {e.reason}"

/-! ## Signals -/

/-- The number of a signal by its name or number. -/
def signal? (name : String) : Option Nat :=
  match name.toNat? with
  | some n => some n
  | none =>
    (ExitStatus.signalNames.find? fun e => e.2 = name || "SIG" ++ e.2 = name).map (·.1)

def kill (s : State) (args : List String) : State :=
  let (signal, goals) := match args with
    | "-s" :: name :: rest => (signal? name, rest)
    | first :: rest =>
      if first.startsWith "-" then (signal? (first.drop 1).toString, rest) else (some 15, args)
    | [] => (none, [])
  match signal with
  | some n =>
    if goals.contains State.process then
      if n = 0 ∨ n ∈ ExitStatus.harmlessSignals then s.withStatus 0
      else { s with ended := some (.signal n) }
    else s.fail 1 s!"{s.name}: 1: kill: No such process"
  | none => s.fail 2 s!"{s.name}: 1: kill: Illegal option"

/-! ## All tools -/

/-- Does something with each argument; the status is that of the last failure. -/
def each (s : State) (f : State → String → State) (args : List String) : State :=
  args.foldl f (s.withStatus 0)

def exit (s : State) : List String → State
  | [] => s.stop
  | n :: _ =>
    match n.toNat? with
    | some n => (s.withStatus n).stop
    | none => (s.fail 2 s!"{s.name}: 1: exit: Illegal number: {n}").stop

def shift (s : State) (args : List String) : State :=
  let n := (args.head?.bind String.toNat?).getD 1
  if s.params.length < n then
    (s.fail 2 s!"{s.name}: 1: shift: can't shift that many").stop
  else { s with params := s.params.drop n, status := 0 }

def find? (name : String) : Option (State → List String → State) :=
  match name with
  | ":" | "true" | "sleep" => some fun s _ => s.withStatus 0
  | "false" => some fun s _ => s.withStatus 1
  | "echo" => some echo
  | "printf" => some printf
  | "exit" => some exit
  | "shift" => some shift
  | "kill" => some kill
  | "test" => some test
  | "[" => some fun s args =>
    if args.getLast? = some "]" then test s args.dropLast
    else s.fail 2 s!"{s.name}: 1: [: missing ]"
  | "cp" => some fun s args =>
    match args with
    | [a, b] => copy s a b
    | _ => s.fail 1 "cp: missing file operand"
  | "mv" => some fun s args =>
    match args with
    | [a, b] => move s a b
    | _ => s.fail 1 "mv: missing file operand"
  | "ln" => some fun s args =>
    match args with
    | ["-s", a, b] => link s a b
    | _ => s.fail 1 "ln: missing file operand"
  | "rm" => some fun s args =>
    let flags := args.filter (·.startsWith "-")
    let has (c : Char) : Bool := flags.any fun f => f.toList.contains c
    each s (fun s p => remove s (has 'f') (has 'r' || has 'R') p)
      (args.filter fun a => !a.startsWith "-")
  | "mkdir" => some fun s args =>
    each s (fun s p =>
      if args.contains "-p" && standing? s.space true p == some .dir then s
      else makeDirectory s p) (args.filter fun a => !a.startsWith "-")
  | "cat" => some fun s args => if args.isEmpty then (s.put s.input).withStatus 0
    else each s show' args
  | "head" => some fun s args =>
    match args with
    | ["-c", n, file] => head s n file
    | _ => s.fail 1 "head: missing operand"
  | "touch" => some fun s args => each s touch args
  | "pwd" => some fun s _ =>
    (s.put ((Location.path s.space.current).text ++ "\n").toUTF8.toList).withStatus 0
  | _ => none

/-- The tools that only a script can use. -/
def isInternal (name : String) : Bool := name ∈ [":", "exit", "shift"]

end Tool
end Shell
end PaletteBitmap

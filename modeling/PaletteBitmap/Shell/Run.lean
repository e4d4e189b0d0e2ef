import PaletteBitmap.Shell.Reader
import PaletteBitmap.Shell.Tools

/-!
# Running scripts

Commands change the state one after another until one ends the script.  Loops are cut off
after a number of steps that no encoder needs.

`Shell.run` runs programs: the shell with a script, and the tools.
-/

namespace PaletteBitmap
namespace Shell

/-! ## Redirections -/

/-- The complaint about a file that cannot be opened. -/
def openComplaint (s : State) (creating : Bool) (p : String) (e : FileError) : String :=
  let reason := match e with
    | .notFound | .notADirectory => if creating then "Directory nonexistent" else "No such file"
    | e => e.reason
  let deed := if creating then "create" else "open"
  s!"{s.name}: 1: cannot {deed} {p}: {reason}"

/-- Leads a stream elsewhere. -/
def State.lead (s : State) (stream : Nat) (sink : Sink) : State :=
  if stream = 2 then { s with err := sink } else { s with out := sink }

/-- Carries out a redirection; nothing is left to do if it fails. -/
def redirect (s : State) : Redirection → Except State State
  | .copy stream other => .ok (s.lead stream (if other = 2 then s.err else s.out))
  | .read file =>
    let p := s.text file
    if p = "/dev/null" then .ok { s with input := [] }
    else
      match s.space.read ⟨p⟩ with
      | .ok data => .ok { s with input := data }
      | .error e => .error (s.fail 2 (openComplaint s false p e))
  | .write stream append file =>
    let p := s.text file
    if p = "/dev/null" then .ok (s.lead stream .nowhere)
    else
      let opened := if append then s.space.append ⟨p⟩ [] else s.space.write ⟨p⟩ []
      match opened with
      | .ok w => .ok ({ s with space := w }.lead stream (.file ⟨p⟩))
      | .error e => .error (s.fail 2 (openComplaint s true p e))

/-- The streams of an earlier state. -/
def State.restore (s before : State) : State :=
  { s with out := before.out, err := before.err, input := before.input }

/-! ## Commands -/

def runWords (s : State) : List String → State
  | [] => s.withStatus 0
  | program :: args =>
    match Tool.find? program with
    | some tool => tool s args
    | none => s.fail 127 s!"{s.name}: 1: {program}: not found"

def assign (s : State) (a : String × Word) : State :=
  { s with bindings := (a.1, s.text a.2) :: s.bindings.filter (·.1 ≠ a.1) }

mutual

def execute : Nat → State → Command → State
  | 0, s, _ => { s with ended := some (.signal 9) }
  | fuel + 1, s, c =>
    match c with
    | .simple assignments words => runWords (assignments.foldl assign s) (words.flatMap s.fields)
    | .redirected c rs =>
      match rs.foldlM redirect s with
      | .ok s' => (execute fuel s' c).restore s
      | .error s' => s'.restore s
    | .forEach name words body =>
      let values := match words with
        | some ws => ws.flatMap s.fields
        | none => s.params
      executeFor fuel (s.withStatus 0) name values body
    | .loop negated condition body => executeLoop fuel (s.withStatus 0) 0 negated condition body
    | .branch condition yes no =>
      let s := executeAll fuel s condition
      if s.ended.isSome then s
      else if s.status = 0 then executeAll fuel s yes
      else executeAll fuel (s.withStatus 0) no
    | .group body => executeAll fuel s body
    | .negation c =>
      let s := execute fuel s c
      s.withStatus (if s.status = 0 then 1 else 0)
    | .chain afterFailure first second =>
      let s := execute fuel s first
      if s.ended.isSome || (s.status = 0) = afterFailure then s else execute fuel s second

/-- Runs commands one after another until one ends the script. -/
def executeAll : Nat → State → Script → State
  | 0, s, _ => { s with ended := some (.signal 9) }
  | _ + 1, s, [] => s
  | fuel + 1, s, c :: cs =>
    let s := execute fuel s c
    if s.ended.isSome then s else executeAll fuel s cs

/-- Runs a body for each value of a variable. -/
def executeFor : Nat → State → String → List String → Script → State
  | 0, s, _, _, _ => { s with ended := some (.signal 9) }
  | _ + 1, s, _, [], _ => s
  | fuel + 1, s, name, v :: vs, body =>
    let bindings := (name, v) :: s.bindings.filter (·.1 ≠ name)
    let s := executeAll fuel { s with bindings } body
    if s.ended.isSome then s else executeFor fuel s name vs body

/-- Runs a body as long as a condition says so; the status is that of the last round. -/
def executeLoop : Nat → State → Nat → Bool → Script → Script → State
  | 0, s, _, _, _, _ => { s with ended := some (.signal 9) }
  | fuel + 1, s, status, negated, condition, body =>
    let s := executeAll fuel s condition
    if s.ended.isSome then s
    else if (s.status = 0) = negated then s.withStatus status
    else
      let s := executeAll fuel s body
      if s.ended.isSome then s else executeLoop fuel s s.status negated condition body

end

/-! ## Programs -/

/-- How many steps a script may take. -/
def patience : Nat := 10000

def State.outcome (s : State) : Outcome :=
  ⟨s.ended.getD (.code (s.status % 256)), s.complaints⟩

def runScript (s : State) (script : String) : State :=
  match Script.ofText? script with
  | none => (s.fail 2 s!"{s.name}: 1: Syntax error").stop
  | some cs => executeAll patience s cs

/-- Runs the shell with arguments. -/
def runShell (w : Workspace) : List String → State
  | "-c" :: script :: name :: params => runScript { space := w, name, params } script
  | ["-c", script] => runScript { space := w, name := "sh" } script
  | ["-c"] => State.fail { space := w, name := "sh" } 2 "sh: 0: -c requires an argument"
  | [] => { space := w, name := "sh" }
  | file :: params =>
    let s : State := { space := w, name := file, params }
    match w.readText ⟨file⟩ with
    | .ok script => runScript s script
    | .error e => s.fail 2 (openComplaint { s with name := "sh" } false file e)

/-- The tool or shell that a path names, if it names one. -/
def installed? (p : Path) : Option String :=
  let directory := p.text.toList.take (p.text.length - ((p.fileName?).getD "").length)
  if String.ofList directory ∈ ["", "/bin/", "/usr/bin/"] then p.fileName? else none

/-- Whether a program with a name can be run. -/
def isProgram (name : String) : Bool :=
  name = "sh" || ((Tool.find? name).isSome && !Tool.isInternal name)

/-- Why no program is found at a path: there is no other file that can be run. -/
def missing (w : Workspace) (p : Path) : FileError :=
  if p.text.contains '/' then
    match w.find p with
    | .error e => e
    | .ok _ => .permissionDenied
  else if (Part.name p.text).isTooLong then .nameTooLong
  else .notFound

def run : Runner := fun w i =>
  if i.program.hasZero || i.args.any (·.toList.contains '\x00') then (.error .zeroInCommand, w)
  else
    match (installed? i.program).filter isProgram with
    | some "sh" =>
      let s := runShell w i.args
      (.ok s.outcome, s.space)
    | some name =>
      let s := runWords { space := w, name } (name :: i.args)
      (.ok s.outcome, s.space)
    | none => (.error (missing w i.program), w)

end Shell
end PaletteBitmap

/-!
# Grammars of command lines

A grammar says which flags a command knows, which of them take a value and which values, and
how many other arguments there are.  Reading goes from left to right and stops at the first
thing that is wrong, at a request for help or the version, or at the name of a command.

A flag is given as `--name VALUE`, `--name=VALUE`, `-n VALUE`, `-nVALUE` or `-n=VALUE`, and at
most once.  A value that starts with a dash has to be attached.  After `--` nothing is a flag.
-/

namespace PaletteBitmap
namespace CommandLine

/-! ## Grammars -/

structure Flag where
  name : String
  /-- Whether the name can be given after two dashes. -/
  long : Bool := true
  short : Option Char := none
  /-- What its value may be; nothing for a flag without a value. -/
  accepts : Option (String → Bool) := none
  required : Bool := false
  about : String := ""

/-- Something with a name and a line about it. -/
structure Topic where
  name : String
  about : String
  deriving DecidableEq, Repr, Inhabited

structure Grammar where
  /-- The command, if it is not that of the program itself. -/
  command : Option String := none
  about : String
  flags : List Flag
  /-- The other arguments. -/
  positionals : List Topic := []
  /-- The commands, at whose names reading stops. -/
  commands : List Topic := []
  /-- Whether help can be asked for. -/
  help : Bool := true
  /-- Whether the version can be asked for. -/
  version : Bool := false

/-- Why reading ended before the command line did. -/
inductive Refusal where
  | usage
  | help (command : Option String)
  | version
  deriving DecidableEq, Repr

structure Matches where
  flags : List (String × String) := []
  positionals : List String := []
  deriving DecidableEq, Repr, Inhabited

namespace Matches

def value? (m : Matches) (name : String) : Option String := m.flags.lookup name

def has (m : Matches) (name : String) : Bool := (m.value? name).isSome

end Matches

/-! ## Reading -/

/-- A flag as it stands on the command line, with the value attached to it. -/
inductive Written where
  | long (name : String) (value : Option String)
  | short (c : Char) (attached : Option String)
  | plain
  deriving DecidableEq, Repr

/-- Tells flags from other arguments; a lone dash is no flag. -/
def written (argument : String) : Written :=
  match argument.toList with
  | '-' :: '-' :: cs =>
    match cs.dropWhile (· ≠ '=') with
    | _ :: value =>
      .long (String.ofList (cs.takeWhile (· ≠ '='))) (some (String.ofList value))
    | [] => .long (String.ofList cs) none
  | '-' :: c :: cs =>
    .short c (match cs with
      | [] => none
      | '=' :: value => some (String.ofList value)
      | value => some (String.ofList value))
  | _ => .plain

namespace Grammar

/-- The flag that stands on the command line, if it is known. -/
def flag? (g : Grammar) : Written → Option Flag
  | .long name _ => g.flags.find? fun f => f.long && f.name == name
  | .short c _ => g.flags.find? fun f => f.short == some c
  | .plain => none

/-- Whether a flag asks for help or the version. -/
def request? (g : Grammar) : Written → Option Refusal
  | .long "help" none | .short 'h' _ => if g.help then some (.help g.command) else none
  | .long "version" none | .short 'V' _ => if g.version then some .version else none
  | _ => none

/-- The value attached to a flag. -/
def attached? : Written → Option String
  | .long _ value => value
  | .short _ value => value
  | .plain => none

/-- Takes a flag with a value; it must be acceptable and not be given yet. -/
def take (m : Matches) (f : Flag) (value : String) : Except Refusal Matches :=
  if m.has f.name then .error .usage
  else if f.accepts.all fun ok => ok value then
    .ok { m with flags := m.flags ++ [(f.name, value)] }
  else .error .usage

def takePositional (g : Grammar) (m : Matches) (a : String) : Except Refusal Matches :=
  if m.positionals.length < g.positionals.length ∧ a ≠ "" then
    .ok { m with positionals := m.positionals ++ [a] }
  else .error .usage

/-- Takes a flag as it stands, with the argument after it as value if it needs one; also says
whether that argument was used. -/
def takeWritten (g : Grammar) (m : Matches) (w : Written) (next : Option String) :
    Except Refusal (Matches × Bool) :=
  match g.request? w, g.flag? w with
  | some r, _ => .error r
  | none, none => .error .usage
  | none, some f =>
    match f.accepts.isSome, attached? w, next with
    | false, some _, _ => .error .usage
    | false, none, _ => (take m f "").map (·, false)
    | true, some value, _ => (take m f value).map (·, false)
    | true, none, none => .error .usage
    | true, none, some value =>
      -- A value with a dash in front would be a flag.
      if written value = .plain then (take m f value).map (·, true) else .error .usage

def hasCommand (g : Grammar) (name : String) : Bool := g.commands.any (·.name == name)

/-- Reads a command line up to its end or the name of a command; yields the rest from that
name on. -/
def readFrom (g : Grammar) (m : Matches) : List String → Except Refusal (Matches × List String)
  | [] => .ok (m, [])
  | a :: rest =>
    if a = "--" then (rest.foldlM g.takePositional m).map (·, [])
    else if written a = .plain then
      if g.hasCommand a then .ok (m, a :: rest)
      else
        match g.takePositional m a with
        | .error r => .error r
        | .ok m => g.readFrom m rest
    else
      match g.takeWritten m (written a) rest.head? with
      | .error r => .error r
      | .ok (m, used) => g.readFrom m (rest.drop (if used then 1 else 0))
termination_by args => args.length
decreasing_by all_goals simp only [List.length_cons, List.length_drop]; omega

def read (g : Grammar) (args : List String) : Except Refusal (Matches × List String) :=
  g.readFrom {} args

end Grammar

/-! ## Values -/

/-- The natural number of a text of decimal digits, perhaps with a plus sign. -/
def digits? (s : String) : Option Nat :=
  let cs := match s.toList with
    | '+' :: rest => rest
    | cs => cs
  if cs.isEmpty || !cs.all Char.isDigit then none
  else some (cs.foldl (fun n c => n * 10 + (c.toNat - 48)) 0)

/-- A natural number below a limit. -/
def count? (limit : Nat) (s : String) : Option Nat := (digits? s).filter (· < limit)

/-- A whole number that is not negative and below a limit; zero may have a minus sign. -/
def number? (limit : Nat) (s : String) : Option Nat :=
  match s.toList with
  | '-' :: rest =>
    if !rest.isEmpty && rest.all (· == '0') then (some 0).filter (· < limit) else none
  | _ => count? limit s

end CommandLine
end PaletteBitmap

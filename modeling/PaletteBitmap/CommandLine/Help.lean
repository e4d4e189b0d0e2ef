import PaletteBitmap.CommandLine.Arguments

/-!
# Help on commands

The page about a command says what it does, how it is called and what each argument is for.
The page is made from the grammar of the command.

Arguments and flags stand in two columns.  If the flags take much of a line and not everything
about them fits beside them, it stands below them instead.
-/

namespace PaletteBitmap
namespace CommandLine

def programName : String := "bgpack"
def programVersion : String := "0.1.0"

/-! ## Flags -/

namespace Flag

/-- How a flag is given, by its long name if it has one. -/
def spelled (f : Flag) : String :=
  let name := if f.long then "--" ++ f.name else "-" ++ String.ofList f.short.toList
  let value := String.ofList (f.name.toList.map fun c => if c = '-' then '_' else c.toUpper)
  if f.accepts.isSome then name ++ " <" ++ value ++ ">" else name

/-- The flag with its letter in front.  Without a letter its place stays free. -/
def topic (f : Flag) : Topic :=
  let letter := match f.short with
    | some c => if f.long then "-" ++ c.toString ++ ", " else ""
    | none => "    "
  ⟨letter ++ f.spelled, f.about⟩

end Flag

/-! ## Columns -/

/-- How many characters a line is thought to have. -/
def lineWidth : Nat := 100

def longest (texts : List String) : Nat := (texts.map String.length).foldl max 0

/-- Topics in two columns. -/
def inColumns (topics : List Topic) : List String :=
  let width := longest (topics.map Topic.name)
  topics.map fun t =>
    "  " ++ t.name ++ String.ofList (List.replicate (width - t.name.length + 2) ' ') ++ t.about

/-- Topics with what is said about them on the next line. -/
def onNextLines (topics : List Topic) : List String :=
  topics.flatMap fun t => ["  " ++ t.name, "          " ++ t.about]

/-- A headline and what stands below it, if there is anything. -/
def titled (title : String) (body : List String) : List String :=
  if body.isEmpty then [] else ["", title ++ ":"] ++ body

/-! ## Pages -/

namespace Grammar

/-- The flags of a command, and those that ask for help and the version. -/
def allFlags (g : Grammar) : List Flag :=
  g.flags ++
    (if g.help then [{ name := "help", short := some 'h', about := "Print help" }] else []) ++
    (if g.version then [{ name := "version", short := some 'V', about := "Print version" }]
      else [])

def usage (g : Grammar) : String :=
  " ".intercalate
    (["Usage:", programName] ++ g.command.toList ++
      (if g.allFlags.isEmpty then [] else ["[OPTIONS]"]) ++
      (g.flags.filter (·.required)).map Flag.spelled ++ g.positionals.map Topic.name ++
      (if g.commands.isEmpty then [] else ["[COMMAND]"]))

def flagLines (flags : List Flag) : List String :=
  let taken := longest (flags.map Flag.spelled) + 12
  let crowded := lineWidth * 2 < taken * 5 &&
    flags.any fun f => lineWidth < taken + f.about.length
  if crowded then onNextLines (flags.map Flag.topic) else inColumns (flags.map Flag.topic)

def page (g : Grammar) : List String :=
  [g.about, "", g.usage] ++ titled "Commands" (inColumns g.commands) ++
    titled "Arguments" (inColumns g.positionals) ++ titled "Options" (flagLines g.allFlags)

end Grammar

end CommandLine
end PaletteBitmap

import PaletteBitmap.CommandLine.Run
import PaletteBitmap.Shell.Run

/-!
# The program

The files that a command line names are read into a workspace, the command is run there, and
what it has changed is written back.  Links are followed by the operating system, so the
workspace has none.
-/

namespace PaletteBitmap
namespace Program

/-- Whether something stands at a path. -/
def stands (p : Path) : IO Bool := do
  try
    let _ ← IO.FS.realPath p.text
    return true
  catch _ => return false

/-- A path without its last part. -/
def directory (p : Path) : Path :=
  ⟨String.ofList (p.text.toList.reverse.dropWhile (· ≠ '/')).reverse⟩

/-- Takes what stands at a path into a workspace: a file, a directory, or the directory in which
nothing stands there. -/
def fetch (w : Workspace) (p : Path) : IO Workspace := do
  try
    let data ← IO.FS.readBinFile p.text
    return w.layOut p (.file data.toList)
  catch _ =>
    if ← stands p then return w.layOut p .dir
    else if ← stands (directory p) then return w.layOut (directory p) .dir
    else return w

/-- An empty workspace in the directory with some names. -/
def emptyWorkspace (current : Location) : Workspace :=
  let directories := Workspace.temporary :: (List.range current.length).map fun n =>
    current.take (n + 1)
  ⟨directories.foldl (fun t l => t.put l .dir) {}, current⟩

/-- Writes an entry.  A file is written beside its place first and then moved there. -/
def store (l : Location) : Entry → IO Unit
  | .file data => do
    let p := l.path.text
    IO.FS.writeBinFile (p ++ ".part") ⟨data.toArray⟩
    IO.FS.rename (p ++ ".part") p
  | .dir => IO.FS.createDirAll l.path.text
  | .link _ => return ()

def storeChanges (before after : FileTree) : IO Unit := do
  for (l, e) in after.entries.reverse do
    if before.get? l ≠ some e then store l e
  for (l, _) in before.entries do
    if (after.get? l).isNone then IO.FS.removeFile l.path.text

/-- Runs the program in the current directory. -/
def runHere (environment : Option Path) (args : List String) : IO CommandLine.Reply := do
  let here : Path := ⟨(← IO.currentDir).toString⟩
  let current := here.allParts.filterMap fun
    | .name n => some n
    | _ => none
  let named := match CommandLine.Line.read args with
    | .ok line => line.paths ++ environment.toList
    | .error _ => []
  let before ← named.foldlM fetch (emptyWorkspace current)
  let (reply, after) := CommandLine.run Shell.run before environment args
  storeChanges before.tree after.tree
  return reply

end Program
end PaletteBitmap

def main (args : List String) : IO UInt32 := do
  try
    let variable' ← IO.getEnv PaletteBitmap.CommandLine.configVariable
    let reply ← PaletteBitmap.Program.runHere (variable'.map PaletteBitmap.Path.mk) args
    IO.print reply.output
    if let some complaint := reply.complaint then IO.eprintln complaint
    return UInt32.ofNat reply.exit
  catch e =>
    IO.eprintln s!"Error: {e}"
    return 1

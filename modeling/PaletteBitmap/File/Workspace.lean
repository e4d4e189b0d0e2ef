import PaletteBitmap.File.Tree

/-!
# Workspaces

A workspace is a tree of files with a current directory, from which paths that do not start
at the root are followed.  The operations are those of an operating system, with its answers
when they fail: reading and writing follow links, moving and removing act on the entry named
and never on what a link points to.
-/

namespace PaletteBitmap

/-- A tree of files and the directory one is in. -/
structure Workspace where
  tree : FileTree
  current : Location
  deriving Repr, Inhabited

namespace Workspace

/-! ## Finding -/

/-- Where a walk along a path begins. -/
def start (w : Workspace) (p : Path) : Location := if p.isAbsolute then [] else w.current

/-- Why a path names nothing wherever it is followed from, if so. -/
def refusal? (p : Path) : Option FileError :=
  if p.hasZero then some .zeroInPath
  else if p.text = "" then some .notFound
  else if p.isTooLong then some .nameTooLong
  else none

/-- The location of a path with all links followed; the last part may name nothing. -/
def reach (w : Workspace) (p : Path) : Except FileError Location :=
  match refusal? p with
  | some e => .error e
  | none => w.tree.walk FileTree.maxLinks (w.start p) p.steps

/-- What stands at a path with all links followed. -/
def find (w : Workspace) (p : Path) : Except FileError (Location × Entry) :=
  match w.reach p with
  | .error e => .error e
  | .ok l =>
    match w.tree.get? l with
    | some e => .ok (l, e)
    | none => .error .notFound

def isFile (w : Workspace) (p : Path) : Bool :=
  match w.find p with
  | .ok (_, .file _) => true
  | _ => false

def read (w : Workspace) (p : Path) : Except FileError (List UInt8) :=
  match w.find p with
  | .error e => .error e
  | .ok (_, .file data) => .ok data
  | .ok _ => .error .isADirectory

def readText (w : Workspace) (p : Path) : Except FileError String :=
  match w.read p with
  | .error e => .error e
  | .ok data =>
    match String.fromUTF8? ⟨data.toArray⟩ with
    | some text => .ok text
    | none => .error .invalidText

/-- The location of the directory that a path is in, by its parts; it must exist. -/
def parent (w : Workspace) (p : Path) : Except FileError Location :=
  if p.parentParts.any Part.hasZero then .error .zeroInPath
  else
    match w.tree.walk FileTree.maxLinks (w.start p) p.parentParts with
    | .error e => .error e
    | .ok l => if (w.tree.get? l).isSome then .ok l else .error .notFound

/-- The location of the directory that a path is in, where a file can be made. -/
def directory (w : Workspace) (p : Path) : Except FileError Location :=
  match w.parent p with
  | .error e => .error e
  | .ok dir =>
    match w.tree.get? dir with
    | some .dir => .ok dir
    | _ => .error .notADirectory

/-- Where a path names an entry: the resolved directory and the name in it. -/
def place? (w : Workspace) (p : Path) : Option Location :=
  match p.fileName?, w.parent p with
  | some n, .ok dir => some (dir ++ [n])
  | _, _ => none

/-! ## Changing -/

/-- The same directory with another tree. -/
def withTree (w : Workspace) (t : FileTree) : Workspace := { w with tree := t }

/-- Writes the file at a path, made anew if there is none. -/
def write (w : Workspace) (p : Path) (data : List UInt8) : Except FileError Workspace :=
  match w.reach p with
  | .error e => .error e
  | .ok l =>
    match w.tree.get? l with
    | some .dir => .error .isADirectory
    | _ => .ok (w.withTree (w.tree.put l (.file data)))

/-- Writes at the end of the file at a path, made anew if there is none. -/
def append (w : Workspace) (p : Path) (data : List UInt8) : Except FileError Workspace :=
  match w.read p with
  | .ok before => w.write p (before ++ data)
  | .error _ => w.write p data

def discard (w : Workspace) (l : Location) : Workspace := w.withTree (w.tree.erase l)

/-- Makes the directories that parts lead through, where there are none. -/
def makeDirectories (w : Workspace) (l : Location) : List Part → Workspace × Location
  | [] => (w, l)
  | part :: rest =>
    match w.tree.walk FileTree.maxLinks l [part] with
    | .error _ => (w, l)
    | .ok next =>
      if (w.tree.get? next).isSome then makeDirectories w next rest
      else makeDirectories (w.withTree (w.tree.put next .dir)) next rest

/-- Where temporary directories are made. -/
def temporary : Location := ["tmp"]

/-- Makes a new directory for temporary files. -/
def makeTemporary (w : Workspace) : Except FileError (Workspace × Location) :=
  match w.tree.get? temporary with
  | none => .error .notFound
  | some .dir =>
    let l := w.tree.unused temporary
    .ok (w.withTree (w.tree.put l .dir), l)
  | some _ => .error .notADirectory

def clear (w : Workspace) (l : Location) : Workspace := w.withTree (w.tree.clear l)

/-- The location of the entry that a path names, for moving to or from it.  The directory is
followed through links, the name is not. -/
def slot (w : Workspace) (p : Path) : Except FileError Location :=
  match refusal? p, p.allParts.getLast? with
  | some e, _ => .error e
  | none, none => .error .busy
  | none, some last =>
    match w.tree.walk FileTree.maxLinks (w.start p) p.allParts.dropLast with
    | .error e => .error e
    | .ok dir =>
      match w.tree.get? dir, last with
      | none, _ => .error .notFound
      | some .dir, .name n =>
        if last.isTooLong then .error .nameTooLong
        else if p.endsInSlash then .error .notADirectory
        else .ok (dir ++ [n])
      | some .dir, _ => .error .busy
      | some _, _ => .error .notADirectory

def moveTo (w : Workspace) (l : Location) (p : Path) : Except FileError Workspace :=
  match w.slot p with
  | .error e => .error e
  | .ok target =>
    match w.tree.get? l with
    | none => .error .notFound
    | some e =>
      if w.tree.get? target = some .dir then .error .isADirectory
      else .ok (w.withTree ((w.tree.erase l).put target e))

/-! ### Temporary files -/

/-- A name that no entry has.  It consists of slashes, so no path leads there by chance. -/
def freshName (w : Workspace) : String :=
  let names := w.current ++ w.tree.entries.flatMap (·.1)
  String.ofList (List.replicate ((names.map (·.length)).foldl max 0 + 1) '/')

/-- A temporary file in the directory that a path is in.  The directory is followed anew each
time the file is used. -/
structure Temporary where
  beside : Path
  name : String
  deriving DecidableEq, Repr

/-- Makes a temporary file in the directory that a path is in. -/
def stage (w : Workspace) (p : Path) (data : List UInt8) :
    Except FileError (Workspace × Temporary) :=
  match w.directory p with
  | .error e => .error e
  | .ok dir =>
    .ok (w.withTree (w.tree.put (dir ++ [w.freshName]) (.file data)), ⟨p, w.freshName⟩)

/-- Where a temporary file is looked for. -/
def locate (w : Workspace) (t : Temporary) : Except FileError Location :=
  match w.directory t.beside with
  | .error e => .error e
  | .ok dir => .ok (dir ++ [t.name])

def persist (w : Workspace) (t : Temporary) (p : Path) : Except FileError Workspace :=
  match w.locate t with
  | .error e => .error e
  | .ok l => w.moveTo l p

/-- Removes a temporary file; one that is not found stays. -/
def drop (w : Workspace) (t : Temporary) : Workspace :=
  match w.locate t with
  | .error _ => w
  | .ok l => w.discard l

/-! ### Removing and laying out -/

def remove (w : Workspace) (p : Path) : Except FileError Workspace :=
  match w.slot p with
  | .error e => .error e
  | .ok target =>
    match w.tree.get? target with
    | none => .error .notFound
    | some .dir => .error .isADirectory
    | some _ => .ok (w.discard target)

/-- Puts an entry at a path, with the directories it needs.  A file is written through a link
that stands there. -/
def layOut (w : Workspace) (p : Path) (e : Entry) : Workspace :=
  let (w, dir) := w.makeDirectories (w.start p) p.parentParts
  match e, p.fileName? with
  | _, none => w
  | .dir, some n => (w.makeDirectories dir [.name n]).1
  | .link target, some n => w.withTree (w.tree.put (dir ++ [n]) (.link target))
  | .file data, some _ =>
    match w.write p data with
    | .ok w => w
    | .error _ => w

/-- Removes what a path names, with all that is in it. -/
def removeAll (w : Workspace) (p : Path) : Workspace :=
  match w.slot p with
  | .ok l => w.withTree (w.tree.clear l)
  | .error _ => w

/-- Everything in the current directory, by its path from there. -/
def contents (w : Workspace) : List (Location × Entry) :=
  w.tree.entries.filterMap fun e =>
    if w.current.isPrefixOf e.1 && e.1 ≠ w.current then
      some (e.1.drop w.current.length, e.2)
    else none

end Workspace

end PaletteBitmap

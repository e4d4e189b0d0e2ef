import PaletteBitmap.File.Error
import PaletteBitmap.File.Path

/-!
# Trees of files

A tree says what stands at each location: a file with its bytes, a directory, a symbolic link
with its target, or nothing.  The view of a tree is `get?`; `put`, `erase` and `clear` are
described by what `get?` answers after them.

`walk` follows the parts of a path from a directory.  Links on the way are followed, up to a
number of them; the last part may name nothing yet.
-/

namespace PaletteBitmap

/-- The names that lead from the root to an entry. -/
abbrev Location := List String

/-- The path from the root to a location. -/
def Location.path (l : Location) : Path :=
  ⟨if l = [] then "/" else l.foldl (fun s n => s ++ "/" ++ n) ""⟩

/-- What can stand at a location. -/
inductive Entry where
  | dir
  | file (data : List UInt8)
  | link (target : Path)
  deriving DecidableEq, Repr, Inhabited

/-- What stands where. -/
structure FileTree where
  entries : List (Location × Entry) := []
  deriving Repr, Inhabited

namespace FileTree

/-! ## Entries -/

/-- What stands at a location; the root is always a directory. -/
def get? (t : FileTree) (l : Location) : Option Entry :=
  if l = [] then some .dir else t.entries.lookup l

def filter (t : FileTree) (f : Location → Bool) : FileTree :=
  ⟨t.entries.filter fun e => f e.1⟩

def erase (t : FileTree) (l : Location) : FileTree := t.filter fun m => !(m == l)

def clear (t : FileTree) (l : Location) : FileTree := t.filter fun m => !l.isPrefixOf m

def put (t : FileTree) (l : Location) (e : Entry) : FileTree :=
  ⟨(l, e) :: (t.erase l).entries⟩

/-- How many tildes stand behind the dot, if a name consists of a dot and tildes. -/
def tildes (name : String) : Nat :=
  match name.toList with
  | '.' :: rest => if rest.all (· == '~') then rest.length else 0
  | _ => 0

/-- A location in a directory at which nothing stands: its name is a dot and more tildes than
stand in any other such name. -/
def unused (t : FileTree) (dir : Location) : Location :=
  let most := (t.entries.map fun e => tildes (e.1.getLastD "")).foldl max 0
  dir ++ [String.ofList ('.' :: List.replicate (most + 1) '~')]

theorem lookup_entries_filter (t : FileTree) (f : Location → Bool) (m : Location) :
    (t.filter f).entries.lookup m = if f m then t.entries.lookup m else none := by
  rw [filter]
  induction t.entries with
  | nil => simp
  | cons e es ih =>
      obtain ⟨l, x⟩ := e
      rw [List.filter_cons]
      by_cases hm : m = l
      · subst hm
        cases hf : f m with
        | true => simp
        | false => simp [ih, hf]
      · have hb : (m == l) = false := beq_eq_false_iff_ne.2 hm
        cases hf : f l with
        | true => simp [List.lookup_cons, hb, ih]
        | false => simp [List.lookup_cons, hb, ih]

/-- The root stays whatever is taken away. -/
theorem get?_filter (t : FileTree) (f : Location → Bool) (m : Location) :
    (t.filter f).get? m = if f m = true ∨ m = [] then t.get? m else none := by
  rw [get?, get?, lookup_entries_filter]
  by_cases hm : m = []
  · simp [hm]
  · simp [hm]

/-- Erasing changes one location only. -/
theorem get?_erase (t : FileTree) (l m : Location) :
    (t.erase l).get? m = if m = l ∧ m ≠ [] then none else t.get? m := by
  rw [erase, get?_filter]
  by_cases hm : m = []
  · simp [hm]
  · by_cases hl : m = l <;> simp [hm, hl]

/-- Putting changes one location only. -/
theorem get?_put (t : FileTree) (l m : Location) (e : Entry) :
    (t.put l e).get? m = if m = l ∧ m ≠ [] then some e else t.get? m := by
  rw [get?, get?, put, List.lookup_cons, erase, lookup_entries_filter]
  by_cases hm : m = []
  · simp [hm]
  · by_cases hl : m = l
    · subst hl
      simp [hm]
    · have hb : (m == l) = false := beq_eq_false_iff_ne.2 hl
      simp [hb, hl]

/-! ## Walks -/

/-- How many links a walk may follow. -/
def maxLinks : Nat := 40

/-- Follows parts from a directory; the location reached by the last part may be empty. -/
def walk (t : FileTree) (links : Nat) (start : Location) :
    List Part → Except FileError Location
  | [] => .ok start
  | part :: rest =>
    match t.get? start with
    | none => .error .notFound
    | some (.file _) | some (.link _) => .error .notADirectory
    | some .dir =>
      match part with
      | .here => walk t links start rest
      | .up => walk t links start.dropLast rest
      | .name n =>
        let next := start ++ [n]
        if part.isTooLong then .error .nameTooLong
        else match t.get? next with
        | none => if rest = [] then .ok next else .error .notFound
        | some (.link target) =>
          match links with
          | 0 => .error .tooManyLinks
          | links + 1 =>
            walk t links (if target.isAbsolute then [] else start) (target.steps ++ rest)
        | some _ => walk t links next rest
termination_by parts => (links, parts.length)

end FileTree

end PaletteBitmap

import PaletteBitmap.Color.Hex
import PaletteBitmap.Yaml.Cursor

/-!
# Names, tags and directives of YAML

A value may be given a name, by which other places refer to it, and a tag, which says what
kind of value it is.  A tag is written in full between angle brackets, or as a handle and a
suffix; what a handle stands for is told by directives at the head of a document.

The octets of a tag may be written by number.  A tag is read up to its first zero octet.
-/

namespace PaletteBitmap
namespace Yaml

/-! ## Names -/

/-- Reads the name after `&` or `*`: name characters, and then white space or one of some
signs. -/
def name? (c : Cursor) : Option (String × Cursor) :=
  let (name, next) := c.step.span isNameChar
  if name.isEmpty then none
  else if next.atWordEnd || next.rest.head?.any "?:,]\x7d%@\x60".toList.contains then
    some (String.ofList name, next)
  else none

/-! ## Tags -/

structure Tag where
  octets : List UInt8
  deriving DecidableEq, Repr, Inhabited

namespace Tag

def ofText (s : String) : Tag := ⟨s.toUTF8.toList⟩

/-- The kinds of value that every document knows. -/
def standard : String := "tag:yaml.org,2002:"

/-- The tag of whole numbers. -/
def int : Tag := ofText (standard ++ "int")

/-- The tag of truth values. -/
def bool : Tag := ofText (standard ++ "bool")

/-- The tag of "no value". -/
def null : Tag := ofText (standard ++ "null")

/-- The tag that says nothing. -/
def plain : Tag := ofText "!"

/-! ### Octets -/

/-- The signs that a tag may hold beside name characters; `list` adds those that separate
things inside brackets. -/
def isUriChar (list : Bool) (c : Char) : Bool :=
  isNameChar c || ";/?:@&=+$.%!~*'()".toList.contains c || (list && ",[]".toList.contains c)

/-- How many octets a character takes, told from the first of them. -/
def octetCount? (first : Nat) : Option Nat :=
  if first < 0x80 then some 1
  else if first < 0xC0 then none
  else if first < 0xE0 then some 2
  else if first < 0xF0 then some 3
  else if first < 0xF8 then some 4
  else none

/-- The octet that is written as a percent sign and two digits. -/
def octet? : List Char → Option Nat
  | '%' :: high :: low :: _ => do
    return (← Color.digitValue? high) * 16 + (← Color.digitValue? low)
  | _ => none

/-- Reads octets, most recent first.  `due` is how many more of the same character have to
follow, each written by number. -/
def octetsFrom? (list : Bool) : Nat → Nat → List UInt8 → Cursor → Option (List UInt8 × Cursor)
  | 0, _, _, _ => none
  | fuel + 1, due, read, c =>
    match c.rest with
    | d :: _ =>
      if due ≠ 0 || d == '%' then do
        let n ← octet? c.rest
        let due ← if due = 0 then octetCount? n else if n / 64 = 2 then some due else none
        octetsFrom? list fuel (due - 1) (UInt8.ofNat n :: read) (c.forward 3)
      else if isUriChar list d then
        octetsFrom? list fuel 0 (d.toString.toUTF8.toList.reverse ++ read) c.step
      else some (read, c)
    | [] => if due = 0 then some (read, c) else none

/-- Reads the octets at a place. -/
def octets? (list : Bool) (c : Cursor) : Option (List UInt8 × Cursor) := do
  let (read, next) ← octetsFrom? list (c.rest.length + 1) 0 [] c
  return (read.reverse, next)

/-- What counts of some octets: those before the first zero. -/
def counted (octets : List UInt8) : List UInt8 := octets.takeWhile (· ≠ 0)

/-! ### Handles and suffixes -/

/-- Reads a word that may be a handle: an exclamation mark, name characters and, if it is
there, a second exclamation mark. -/
def handle? (c : Cursor) : Option (List Char × Cursor) :=
  if !c.atChar '!' then none
  else
    let (name, next) := c.step.span isNameChar
    if next.atChar '!' then some ('!' :: name ++ ['!'], next.step) else some ('!' :: name, next)

/-- A tag as it is written; without a handle the suffix is the whole tag. -/
structure Written where
  handle : Option String
  suffix : List UInt8
  deriving DecidableEq, Repr, Inhabited

/-- Reads a tag: in full, with a handle, or with nothing but an exclamation mark in front. -/
def written? (c : Cursor) : Option (Written × Cursor) :=
  if c.step.atChar '<' then do
    let (octets, next) ← octets? true (c.forward 2)
    if octets.isEmpty || !next.atChar '>' then none
    else return (⟨none, counted octets⟩, next.step)
  else do
    let (word, next) ← handle? c
    let (octets, last) ← octets? false next
    if 1 < word.length && word.getLast? == some '!' then
      if octets.isEmpty then none else return (⟨some (String.ofList word), counted octets⟩, last)
    else
      let suffix := counted ((String.ofList word.tail).toUTF8.toList ++ octets)
      if suffix.isEmpty then return (⟨none, plain.octets⟩, last)
      else return (⟨some "!", suffix⟩, last)

/-- Reads a tag that ends with white space or, inside brackets, a comma. -/
def read? (flow : Bool) (c : Cursor) : Option (Written × Cursor) := do
  let (tag, next) ← written? c
  if next.atWordEnd || (flow && next.atChar ',') then return (tag, next) else none

/-! ### Meaning -/

/-- What handles stand for. -/
abbrev Handles := List (String × List UInt8)

/-- What handles stand for where nothing else is said. -/
def standardHandles : Handles := [("!", plain.octets), ("!!", (ofText standard).octets)]

/-- The tag that is meant. -/
def Written.resolve? (handles : Handles) (w : Written) : Option Tag :=
  match w.handle with
  | none => some ⟨w.suffix⟩
  | some handle => (handles.lookup handle).map fun front => ⟨front ++ w.suffix⟩

end Tag

/-! ## Directives -/

/-- A line at the head of a document. -/
inductive Directive where
  | version (major minor : Nat)
  | handle (name : String) (meaning : List UInt8)
  deriving DecidableEq, Repr, Inhabited

namespace Directive

/-- Reads a number of at most nine digits. -/
def number? (c : Cursor) : Option (Nat × Cursor) :=
  let (digits, next) := c.span Char.isDigit
  if digits.isEmpty || 9 < digits.length then none
  else some (digits.foldl (fun n d => n * 10 + (d.toNat - '0'.toNat)) 0, next)

/-- Reads the two numbers of a version. -/
def version? (c : Cursor) : Option (Directive × Cursor) := do
  let (major, next) ← number? (c.skipWhile isSpace)
  if !next.atChar '.' then none
  else
    let (minor, next) ← number? next.step
    return (version major minor, next)

/-- Reads a handle and what it stands for. -/
def meaning? (c : Cursor) : Option (Directive × Cursor) := do
  let (word, next) ← Tag.handle? (c.skipWhile isSpace)
  if word.getLast? ≠ some '!' then none
  else if !next.rest.head?.any isSpace then none
  else
    let (octets, next) ← Tag.octets? true (next.skipWhile isSpace)
    if octets.isEmpty || !next.atWordEnd then none
    else return (handle (String.ofList word) (Tag.counted octets), next)

/-- Reads a directive with the rest of its line. -/
def read? (c : Cursor) : Option (Directive × Cursor) := do
  let (name, next) := c.step.span isNameChar
  if !next.atWordEnd then none
  else
    let (directive, next) ← match String.ofList name with
      | "YAML" => version? next
      | "TAG" => meaning? next
      | _ => none
    return (directive, ← next.endLine?)

end Directive

end Yaml
end PaletteBitmap

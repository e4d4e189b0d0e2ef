import PaletteBitmap.Yaml.Node

/-!
# Typed values of a document

What a value means where a number, a truth value, a text, a list or a table is expected.
A number or a truth value is written plainly, or with its tag as a block; a text may be written
in any way, and what is written is the text.  Nothing at all stands for an empty list or table.
-/

namespace PaletteBitmap
namespace Yaml

/-! ## Numbers -/

/-- The number of digits in a base, of at least one digit. -/
def number? (base : Nat) (digits : List Char) : Option Nat :=
  if digits.isEmpty then none
  else digits.foldlM (fun n c =>
    match Color.digitValue? c with
    | some d => if d < base then some (n * base + d) else none
    | none => none) 0

/-- The number of a text: decimal without needless zeros in front, or in base 16, 8 or 2 after
`0x`, `0o` or `0b`; a plus sign may stand before it. -/
def natural? (cs : List Char) : Option Nat :=
  let body := match cs with
    | '+' :: rest => rest
    | _ => cs
  match body with
  | '0' :: 'x' :: digits => number? 16 digits
  | '0' :: 'o' :: digits => number? 8 digits
  | '0' :: 'b' :: digits => number? 2 digits
  | '0' :: _ :: _ => none
  | digits => number? 10 digits

namespace Scalar

/-- Whether a number or a truth value may be written in this way: plainly, or as a block that
keeps its lines and has the tag of that kind. -/
def mayBe (kind : Tag) (s : Scalar) : Bool :=
  s.style = .plain || (s.style = .literal && s.tag = some kind)

/-- The number below a limit that a scalar stands for. -/
def nat? (limit : Nat) (s : Scalar) : Option Nat :=
  if s.mayBe .int then (natural? s.text.toList).filter (· < limit) else none

/-- The truth value that a scalar stands for. -/
def bool? (s : Scalar) : Option Bool :=
  if !s.mayBe .bool then none
  else if s.text ∈ ["true", "True", "TRUE"] then some true
  else if s.text ∈ ["false", "False", "FALSE"] then some false
  else none

/-- Whether nothing at all is written. -/
def isBlank (s : Scalar) : Bool := s.style = .plain && s.text = ""

/-- Whether a text is a word for "no value". -/
def isNullWord (text : String) : Bool := text ∈ ["~", "null", "Null", "NULL"]

/-- Whether a scalar stands for "no value".  A tag decides; where it says that there is none,
the text has to say so too. -/
def isNull? (s : Scalar) : Option Bool :=
  if s.style ≠ .plain then some false
  else
    match s.tag with
    | none => some (s.text = "" || isNullWord s.text)
    | some tag =>
      if tag ≠ .null then some false else if isNullWord s.text then some true else none

end Scalar

/-! ## Values -/

namespace Document

/-- The scalar that a value is. -/
def scalar? (d : Document) (node : Node) : Option Scalar :=
  match d.resolve node with
  | .scalar s => some s
  | _ => none

def nat? (limit : Nat) (d : Document) (node : Node) : Option Nat :=
  (d.scalar? node).bind (Scalar.nat? limit)

def bool? (d : Document) (node : Node) : Option Bool := (d.scalar? node).bind Scalar.bool?

def text? (d : Document) (node : Node) : Option String := (d.scalar? node).map (·.text)

/-- The text of a value, or that there is none. -/
def optionalText? (d : Document) (node : Node) : Option (Option String) := do
  let s ← d.scalar? node
  return if ← s.isNull? then none else some s.text

def texts? (d : Document) (node : Node) : Option (List String) :=
  match d.resolve node with
  | .list items => items.mapM d.text?
  | .scalar s => if s.isBlank then some [] else none
  | _ => none

def entries? (d : Document) (node : Node) : Option (List (Node × Node)) :=
  match d.resolve node with
  | .map entries => some entries
  | .scalar s => if s.isBlank then some [] else none
  | _ => none

end Document

/-! ## Tables with known keys -/

/-- What is wrong with a document. -/
inductive Problem where
  | malformed
  /-- Something else stands where a table is expected. -/
  | noTable
  /-- A key is no text. -/
  | noKey
  | duplicate (key : String)
  /-- The value of a key is not of its type. -/
  | value (key : String)
  deriving DecidableEq, Repr

def Problem.message : Problem → String
  | malformed => "malformed document"
  | noTable => "expected a table"
  | noKey => "expected a text as key"
  | duplicate key => "duplicate key '" ++ key ++ "'"
  | value key => "invalid value of '" ++ key ++ "'"

/-- How the value of each known key is taken over. -/
abbrev Keys (α : Type) := List (String × (Document → α → Node → Except Problem α))

namespace Keys

/-- A key whose value is read in one way and stored in another. -/
def key (name : String) (read : Document → Node → Option β) (store : α → β → α) :
    String × (Document → α → Node → Except Problem α) :=
  (name, fun d a node =>
    match read d node with
    | some b => .ok (store a b)
    | none => .error (.value name))

/-- Takes over the entries of a table.  Keys that are not known are passed over. -/
def takeEntries (keys : Keys α) (d : Document) (seen : List String) (a : α) :
    List (Node × Node) → Except Problem α
  | [] => .ok a
  | (k, v) :: rest =>
    match d.text? k with
    | none => .error .noKey
    | some name =>
      match keys.lookup name with
      | none => keys.takeEntries d seen a rest
      | some take =>
        if name ∈ seen then .error (.duplicate name)
        else
          match take d a v with
          | .error p => .error p
          | .ok a' => keys.takeEntries d (name :: seen) a' rest

def takeTable (keys : Keys α) (d : Document) (a : α) (node : Node) : Except Problem α :=
  match d.entries? node with
  | some entries => keys.takeEntries d [] a entries
  | none => .error .noTable

end Keys

end Yaml
end PaletteBitmap

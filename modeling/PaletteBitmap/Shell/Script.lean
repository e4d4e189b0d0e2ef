/-!
# Shell scripts

The commands of a small shell language: simple commands with redirections, `for`, `while`,
`until`, `if`, groups and the connectives `&&`, `||` and `!`.  Words are made of texts and of
values of variables, in quotes or not.

Pipes, functions, `case`, here-documents, arithmetic and the output of commands as a value are
no part of the language.
-/

namespace PaletteBitmap
namespace Shell

/-! ## Words -/

/-- What is cut off a value: the shortest or longest match of a pattern at one of its ends. -/
structure Cut where
  atEnd : Bool
  longest : Bool
  pattern : List Char
  deriving DecidableEq, Repr

/-- A part of a word. -/
inductive Piece where
  | text (quoted : Bool) (cs : List Char)
  | value (quoted : Bool) (name : String) (cut : Option Cut)
  deriving DecidableEq, Repr

abbrev Word := List Piece

/-- The text of a word that is not quoted and has no values. -/
def Word.bare? : Word → Option String
  | [.text false cs] => some (String.ofList cs)
  | _ => none

/-! ## Redirections -/

/-- A change of where a stream leads; streams 1 and 2 are output and complaints. -/
inductive Redirection where
  | write (stream : Nat) (append : Bool) (file : Word)
  | read (file : Word)
  | copy (stream other : Nat)
  deriving DecidableEq, Repr

/-! ## Commands -/

inductive Command where
  /-- A program with arguments, or assignments alone. -/
  | simple (assignments : List (String × Word)) (words : List Word)
  /-- A command with other streams. -/
  | redirected (command : Command) (redirections : List Redirection)
  /-- A body for each of some words, or for each parameter. -/
  | forEach (name : String) (words : Option (List Word)) (body : List Command)
  /-- A body as long as a condition holds, or does not. -/
  | loop (negated : Bool) (condition body : List Command)
  | branch (condition yes no : List Command)
  | group (body : List Command)
  | negation (command : Command)
  /-- A second command if the first went well, or if it did not. -/
  | chain (afterFailure : Bool) (first second : Command)
  deriving Repr, Inhabited

abbrev Script := List Command

end Shell
end PaletteBitmap

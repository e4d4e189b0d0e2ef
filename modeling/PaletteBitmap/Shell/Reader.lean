import PaletteBitmap.Shell.Script

/-!
# Reading shell scripts

A script is cut into words and signs, and these are put together to commands.  Every step
consumes a character or a token, so the length of the script bounds them all.
-/

namespace PaletteBitmap
namespace Shell

/-! ## Words and signs -/

inductive Token where
  | word (w : Word)
  /-- A semicolon or the end of a line. -/
  | separator
  | and
  | or
  /-- The start of a redirection into a file or, with `append`, to its end. -/
  | write (stream : Nat) (append : Bool)
  | read
  | copy (stream other : Nat)
  deriving DecidableEq, Repr

/-- The characters that names are made of. -/
def isNameChar (c : Char) : Bool := c.isAlphanum || c == '_'

/-- Adds a character to a word. -/
def addChar (quoted : Bool) (c : Char) (w : Word) : Word :=
  match w.reverse with
  | .text q cs :: before =>
    if q == quoted then before.reverse ++ [.text q (cs ++ [c])] else w ++ [.text quoted [c]]
  | _ => w ++ [.text quoted [c]]

/-- Reads what a pattern cuts off. -/
def readCut : List Char → Option Cut
  | '#' :: '#' :: pattern => some ⟨false, true, pattern⟩
  | '#' :: pattern => some ⟨false, false, pattern⟩
  | '%' :: '%' :: pattern => some ⟨true, true, pattern⟩
  | '%' :: pattern => some ⟨true, false, pattern⟩
  | _ => none

/-- Reads what follows a dollar sign. -/
def readValue (quoted : Bool) (cs : List Char) : Option (Piece × List Char) :=
  match cs with
  | '{' :: rest =>
    let inside := rest.takeWhile (· ≠ '}')
    let after := rest.dropWhile (· ≠ '}')
    if after.isEmpty then none
    else
      let name := if inside.head?.any isNameChar then inside.takeWhile isNameChar
        else inside.take 1
      let tail := inside.drop name.length
      let piece := Piece.value quoted (String.ofList name)
      if name.isEmpty then none
      else if tail.isEmpty then some (piece none, after.drop 1)
      else (readCut tail).map fun cut => (piece (some cut), after.drop 1)
  | c :: rest =>
    if c.isDigit || "@*#?$!-".toList.contains c then
      some (.value quoted (String.ofList [c]) none, rest)
    else if isNameChar c then
      let name := cs.takeWhile isNameChar
      some (.value quoted (String.ofList name) none, cs.dropWhile isNameChar)
    else if c == '(' then none
    else some (.text quoted ['$'], cs)
  | [] => some (.text quoted ['$'], [])

/-- Reads the inside of double quotes. -/
def readDouble : Nat → Word → List Char → Option (Word × List Char)
  | 0, _, _ => none
  | fuel + 1, w, cs =>
    match cs with
    | [] => none
    | '"' :: rest => some (w, rest)
    | '\\' :: c :: rest =>
      if c == '\n' then readDouble fuel w rest
      else if "$\x60\"\\".toList.contains c then readDouble fuel (addChar true c w) rest
      else readDouble fuel (addChar true c (addChar true '\\' w)) rest
    | '$' :: rest => do
      let (piece, rest) ← readValue true rest
      readDouble fuel (w ++ [piece]) rest
    | '\x60' :: _ => none
    | c :: rest => readDouble fuel (addChar true c w) rest

def endsWord (c : Char) : Bool := " \t\n;&|<>()".toList.contains c

/-- Reads a word. -/
def readWord : Nat → Word → List Char → Option (Word × List Char)
  | 0, _, _ => none
  | fuel + 1, w, cs =>
    match cs with
    | [] => some (w, [])
    | '\'' :: rest =>
      let inside := rest.takeWhile (· ≠ '\'')
      let after := rest.dropWhile (· ≠ '\'')
      if after.isEmpty then none
      else readWord fuel (w ++ [.text true inside]) (after.drop 1)
    | '"' :: rest => do
      let (w, rest) ← readDouble fuel (w ++ [.text true []]) rest
      readWord fuel w rest
    | '\\' :: '\n' :: rest => readWord fuel w rest
    | '\\' :: c :: rest => readWord fuel (w ++ [.text true [c]]) rest
    | '$' :: rest => do
      let (piece, rest) ← readValue false rest
      readWord fuel (w ++ [piece]) rest
    | '\x60' :: _ => none
    | c :: rest => if endsWord c then some (w, cs) else readWord fuel (addChar false c w) rest

/-- A digit before an angle is the stream that is redirected. -/
def readAngle (stream : Nat) : List Char → Option (Token × List Char)
  | '>' :: '>' :: rest => some (.write stream true, rest)
  | '>' :: '&' :: d :: rest =>
    if d.isDigit then some (.copy stream (d.toNat - 48), rest) else none
  | '>' :: '|' :: rest => some (.write stream false, rest)
  | '>' :: rest => some (.write stream false, rest)
  | _ => none

def tokens : Nat → List Char → Option (List Token)
  | 0, _ => none
  | fuel + 1, cs =>
    match cs with
    | [] => some []
    | '\\' :: '\n' :: rest => tokens fuel rest
    | ';' :: rest | '\n' :: rest => (tokens fuel rest).map (.separator :: ·)
    | '&' :: '&' :: rest => (tokens fuel rest).map (.and :: ·)
    | '|' :: '|' :: rest => (tokens fuel rest).map (.or :: ·)
    -- Words are read whole below, so this sign is not inside one.
    | '#' :: rest => tokens fuel (rest.dropWhile (· ≠ '\n'))
    | '<' :: rest => (tokens fuel rest).map (.read :: ·)
    | '>' :: _ => do
      let (t, rest) ← readAngle 1 cs
      (tokens fuel rest).map (t :: ·)
    | c :: rest =>
      if c == ' ' || c == '\t' then tokens fuel rest
      else if (c == '1' || c == '2') && rest.head? == some '>' then do
        let (t, rest) ← readAngle (c.toNat - 48) rest
        (tokens fuel rest).map (t :: ·)
      else if endsWord c then none
      else do
        let (w, rest) ← readWord (cs.length + 1) [] cs
        (tokens fuel rest).map (.word w :: ·)

/-! ## Commands -/

/-- The next token if it is a word without quotes and values. -/
def keyword? : List Token → Option String
  | .word w :: _ => w.bare?
  | _ => none

/-- The rest after a keyword that has to stand there. -/
def expect (k : String) (ts : List Token) : Option (List Token) :=
  if keyword? ts = some k then some (ts.drop 1) else none

def skipSeparators (ts : List Token) : List Token := ts.dropWhile (· == .separator)

/-- The assignment that a word is, if it is one. -/
def assignment? : Word → Option (String × Word)
  | .text false cs :: rest =>
    let name := cs.takeWhile isNameChar
    match cs.dropWhile isNameChar with
    | '=' :: value =>
      if name.isEmpty || name.head?.any Char.isDigit then none
      else some (String.ofList name, if value.isEmpty then rest else .text false value :: rest)
    | _ => none
  | _ => none

/-- Reads redirections. -/
def redirections : Nat → List Token → List Redirection × List Token
  | 0, ts => ([], ts)
  | fuel + 1, ts =>
    match ts with
    | .write stream append :: .word w :: rest =>
      let (rs, rest) := redirections fuel rest
      (.write stream append w :: rs, rest)
    | .read :: .word w :: rest =>
      let (rs, rest) := redirections fuel rest
      (.read w :: rs, rest)
    | .copy stream other :: rest =>
      let (rs, rest) := redirections fuel rest
      (.copy stream other :: rs, rest)
    | _ => ([], ts)

/-- A command with redirections, if there are any. -/
def Command.withRedirections (c : Command) (rs : List Redirection) : Command :=
  if rs.isEmpty then c else .redirected c rs

def simpleFrom (assignments : List (String × Word)) (words : List Word)
    (rs : List Redirection) : Nat → List Token → Option (Command × List Token)
  | 0, _ => none
  | fuel + 1, ts =>
    match ts with
    | .word w :: rest =>
      match (if words.isEmpty then assignment? w else none) with
      | some a => simpleFrom (assignments ++ [a]) words rs fuel rest
      | none => simpleFrom assignments (words ++ [w]) rs fuel rest
    | .write .. :: _ | .read :: _ | .copy .. :: _ =>
      match redirections ts.length ts with
      | ([], _) => none
      | (more, rest) => simpleFrom assignments words (rs ++ more) fuel rest
    | _ =>
      if assignments.isEmpty && words.isEmpty && rs.isEmpty then none
      else some (Command.withRedirections (.simple assignments words) rs, ts)

def forWords : List Token → List Word × List Token
  | .word w :: rest =>
    let (ws, rest) := forWords rest
    (w :: ws, rest)
  | ts => ([], ts)

/-- Reads the redirections of a command that has just ended. -/
def closed (c : Command) (ts : List Token) : Option (Command × List Token) :=
  let (rs, rest) := redirections ts.length ts
  some (c.withRedirections rs, rest)

mutual

/-- Reads commands up to one of some keywords or the end. -/
def commands (stops : List String) : Nat → List Token → Option (Script × List Token)
  | 0, _ => none
  | fuel + 1, ts =>
    let ts := skipSeparators ts
    if ts.isEmpty || (keyword? ts).any stops.contains then some ([], ts)
    else do
      let (first, rest) ← command fuel ts
      let (c, rest) ← chains fuel first rest
      -- Between two commands there is a separator; a closing keyword needs none.
      if rest.isEmpty || rest.head? == some .separator || (keyword? rest).any stops.contains then
        let (cs, rest) ← commands stops fuel rest
        return (c :: cs, rest)
      else none

/-- Reads what connectives add to a command. -/
def chains : Nat → Command → List Token → Option (Command × List Token)
  | 0, _, _ => none
  | fuel + 1, first, ts =>
    match ts with
    | .and :: rest => do
      let (second, rest) ← command fuel (skipSeparators rest)
      chains fuel (.chain false first second) rest
    | .or :: rest => do
      let (second, rest) ← command fuel (skipSeparators rest)
      chains fuel (.chain true first second) rest
    | _ => some (first, ts)

def command : Nat → List Token → Option (Command × List Token)
  | 0, _ => none
  | fuel + 1, ts =>
    match keyword? ts with
    | some "!" => do
      let (c, rest) ← command fuel (ts.drop 1)
      return (.negation c, rest)
    | some "\x7b" => do
      let (body, rest) ← commands ["\x7d"] fuel (ts.drop 1)
      closed (.group body) (← expect "\x7d" rest)
    | some "for" => do
      let name ← keyword? (ts.drop 1)
      let rest := skipSeparators (ts.drop 2)
      let (words, rest) := match expect "in" rest with
        | some rest =>
          let (ws, rest) := forWords rest
          (some ws, rest)
        | none => (none, rest)
      let rest ← expect "do" (skipSeparators rest)
      let (body, rest) ← commands ["done"] fuel rest
      closed (.forEach name words body) (← expect "done" rest)
    | some "while" => loopFrom fuel false (ts.drop 1)
    | some "until" => loopFrom fuel true (ts.drop 1)
    | some "if" => do
      let (c, rest) ← branchFrom fuel (ts.drop 1)
      closed c (← expect "fi" rest)
    | _ => simpleFrom [] [] [] (ts.length + 1) ts

def loopFrom : Nat → Bool → List Token → Option (Command × List Token)
  | 0, _, _ => none
  | fuel + 1, negated, ts => do
    let (condition, rest) ← commands ["do"] fuel ts
    let (body, rest) ← commands ["done"] fuel (← expect "do" rest)
    closed (.loop negated condition body) (← expect "done" rest)

/-- Reads a branch up to its last keyword. -/
def branchFrom : Nat → List Token → Option (Command × List Token)
  | 0, _ => none
  | fuel + 1, ts => do
    let (condition, rest) ← commands ["then"] fuel ts
    let (yes, rest) ← commands ["elif", "else", "fi"] fuel (← expect "then" rest)
    match keyword? rest with
    | some "elif" =>
      let (c, rest) ← branchFrom fuel (rest.drop 1)
      return (.branch condition yes [c], rest)
    | some "else" =>
      let (no, rest) ← commands ["fi"] fuel (rest.drop 1)
      return (.branch condition yes no, rest)
    | _ => return (.branch condition yes [], rest)

end

def Script.ofText? (text : String) : Option Script := do
  let ts ← tokens (text.length + 1) text.toList
  let (script, rest) ← commands [] (4 * ts.length + 4) ts
  if rest.isEmpty then return script else none

end Shell
end PaletteBitmap

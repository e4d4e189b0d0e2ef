import PaletteBitmap.Yaml.Token

/-!
# YAML documents

A document is a scalar, a list or a table of keys and values.  A value may be given a name,
and an alias stands for the value with a name.  `Document.ofText?` reads a text with one
document or none.

Names are numbered as they are met, and an alias keeps the number that its name has where it
stands.  If two values have one number, it stands for the later one.

Every two steps of reading take a token, so the number of tokens bounds the depth of nesting
and the number of items alike.
-/

namespace PaletteBitmap
namespace Yaml

/-- A value in a document. -/
inductive Node where
  | scalar (s : Scalar)
  | list (items : List Node)
  | map (entries : List (Node × Node))
  /-- A value that has a number. -/
  | anchored (id : Nat) (node : Node)
  /-- The value with a number. -/
  | reference (id : Nat)
  deriving Repr, Inhabited

namespace Node

def empty : Node := scalar .empty

end Node

/-! ## Names in force -/

/-- The tokens that are left, and what names and handles stand for. -/
structure TokenReader where
  tokens : List Token
  names : List (String × Nat) := []
  handles : Tag.Handles := Tag.standardHandles
  deriving Repr, Inhabited

namespace TokenReader

/-- Goes on to the tokens that are left. -/
def goTo (tokens : List Token) (r : TokenReader) : TokenReader := { r with tokens := tokens }

/-- Whether one of some tokens stands next. -/
def nextIn (r : TokenReader) (ts : List Token) : Bool := r.tokens.head?.any (· ∈ ts)

/-- Gives a name the next number. -/
def bind (name : String) (r : TokenReader) : Nat × TokenReader :=
  let id := r.names.length
  (id, { r with names := (name, id) :: r.names.filter (·.1 ≠ name) })

/-- Reads an anchor, if there is one. -/
def anchor (r : TokenReader) : Option Nat × TokenReader :=
  match r.tokens with
  | .anchor name :: rest =>
    let (id, r) := (r.goTo rest).bind name
    (some id, r)
  | _ => (none, r)

def tag? (r : TokenReader) : Option (Option Tag × TokenReader) :=
  match r.tokens with
  | .tag t :: rest => (t.resolve? r.handles).map fun tag => (some tag, r.goTo rest)
  | _ => some (none, r)

/-- Reads an anchor and a tag, in either order. -/
def properties? (r : TokenReader) : Option (Option Nat × Option Tag × TokenReader) := do
  let (id, r) := r.anchor
  let (tag, r) ← r.tag?
  if id.isSome then return (id, tag, r)
  else
    let (id, r) := r.anchor
    return (id, tag, r)

end TokenReader

/-! ## Values -/

namespace Node

/-- A value under its number, if it has one. -/
def withId : Option Nat → Node → Node
  | none, node => node
  | some id, node => anchored id node

/-- A scalar with a tag; the tag that says nothing is left out. -/
def tagged (s : Scalar) (tag : Option Tag) : Node :=
  scalar { s with tag := tag.filter (· ≠ .plain) }

/-- The tokens behind the comma that items but the first begin with. -/
def afterComma? (first : Bool) : List Token → Option (List Token)
  | tokens => if first then some tokens else
    match tokens with
    | .comma :: rest => some rest
    | _ => none

mutual

/-- Reads a value.  `block` allows blocks, and `dashes` a list of items that stand right below
the key they belong to. -/
def read? (block dashes : Bool) : Nat → TokenReader → Option (Node × TokenReader)
  | 0, _ => none
  | fuel + 1, r =>
    match r.tokens with
    | .reference name :: rest =>
      (r.names.lookup name).map fun id => (reference id, r.goTo rest)
    | _ => do
      let (id, tag, r) ← r.properties?
      let (node, r) ← content? block dashes (id.isSome || tag.isSome) tag fuel r
      return (withId id node, r)

/-- Reads a value without its properties.  If it has any, there may be nothing else. -/
def content? (block dashes properties : Bool) (tag : Option Tag) :
    Nat → TokenReader → Option (Node × TokenReader)
  | 0, _ => none
  | fuel + 1, r =>
    match r.tokens with
    | .scalar s :: rest => some (tagged s tag, r.goTo rest)
    | .openList :: rest =>
      (flowItems? true fuel (r.goTo rest)).map fun (items, r) => (list items, r)
    | .openMap :: rest =>
      (flowEntries? true fuel (r.goTo rest)).map fun (entries, r) => (map entries, r)
    | .blockList :: rest =>
      if block then (blockItems? fuel (r.goTo rest)).map fun (items, r) => (list items, r)
      else if properties then some (scalar { Scalar.empty with tag := tag }, r)
      else none
    | .blockMap :: rest =>
      if block then (blockEntries? fuel (r.goTo rest)).map fun (entries, r) => (map entries, r)
      else if properties then some (scalar { Scalar.empty with tag := tag }, r)
      else none
    | _ =>
      if dashes && r.nextIn [.dash] then
        (dashItems? fuel r).map fun (items, r) => (list items, r)
      else if properties then some (scalar { Scalar.empty with tag := tag }, r)
      else none

/-- Reads a value, or nothing where one of some tokens stands next. -/
def unless? (ends : List Token) (block dashes : Bool) :
    Nat → TokenReader → Option (Node × TokenReader)
  | 0, _ => none
  | fuel + 1, r => if r.nextIn ends then some (empty, r) else read? block dashes fuel r

/-- Reads the items of a block list and its end. -/
def blockItems? : Nat → TokenReader → Option (List Node × TokenReader)
  | 0, _ => none
  | fuel + 1, r =>
    match r.tokens with
    | .blockEnd :: rest => some ([], r.goTo rest)
    | .dash :: rest => do
      let (item, r) ← unless? [.dash, .blockEnd] true false fuel (r.goTo rest)
      let (items, r) ← blockItems? fuel r
      return (item :: items, r)
    | _ => none

/-- Reads the items of a list right below its key. -/
def dashItems? : Nat → TokenReader → Option (List Node × TokenReader)
  | 0, _ => none
  | fuel + 1, r =>
    match r.tokens with
    | .dash :: rest => do
      let (item, r) ← unless? [.dash, .key, .value, .blockEnd] true false fuel (r.goTo rest)
      let (items, r) ← dashItems? fuel r
      return (item :: items, r)
    | _ => some ([], r)

/-- Reads the value of a key, where there may be none. -/
def value? (ends : List Token) (block : Bool) : Nat → TokenReader → Option (Node × TokenReader)
  | 0, _ => none
  | fuel + 1, r =>
    match r.tokens with
    | .value :: rest => unless? ends block block fuel (r.goTo rest)
    | _ => some (empty, r)

/-- Reads the entries of a block table and its end. -/
def blockEntries? : Nat → TokenReader → Option (List (Node × Node) × TokenReader)
  | 0, _ => none
  | fuel + 1, r =>
    match r.tokens with
    | .blockEnd :: rest => some ([], r.goTo rest)
    | .key :: rest => do
      let ends := [.key, .value, .blockEnd]
      let (key, r) ← unless? ends true true fuel (r.goTo rest)
      let (value, r) ← value? ends true fuel r
      let (entries, r) ← blockEntries? fuel r
      return ((key, value) :: entries, r)
    | _ => none

/-- Reads the items of a list in brackets and its end; a pair is a table of one entry. -/
def flowItems? (first : Bool) : Nat → TokenReader → Option (List Node × TokenReader)
  | 0, _ => none
  | fuel + 1, r =>
    match r.tokens with
    | .closeList :: rest => some ([], r.goTo rest)
    | _ => do
      let tokens ← afterComma? first r.tokens
      match tokens with
      | .closeList :: rest => return ([], r.goTo rest)
      | .key :: rest =>
        let (entry, r) ← pair? fuel (r.goTo rest)
        let (items, r) ← flowItems? false fuel r
        return (map [entry] :: items, r)
      | _ =>
        let (item, r) ← read? false false fuel (r.goTo tokens)
        let (items, r) ← flowItems? false fuel r
        return (item :: items, r)

/-- Reads a pair in a list.  What ends an empty key belongs to it. -/
def pair? : Nat → TokenReader → Option ((Node × Node) × TokenReader)
  | 0, _ => none
  | fuel + 1, r => do
    let (key, r) ←
      if r.nextIn [.value, .comma, .closeList] then some (empty, r.goTo r.tokens.tail)
      else read? false false fuel r
    let (value, r) ← value? [.comma, .closeList] false fuel r
    return ((key, value), r)

/-- Reads the entries of a table in brackets and its end; a key alone has an empty value. -/
def flowEntries? (first : Bool) : Nat → TokenReader → Option (List (Node × Node) × TokenReader)
  | 0, _ => none
  | fuel + 1, r =>
    match r.tokens with
    | .closeMap :: rest => some ([], r.goTo rest)
    | _ => do
      let tokens ← afterComma? first r.tokens
      match tokens with
      | .closeMap :: rest => return ([], r.goTo rest)
      | .key :: rest =>
        let (key, r) ← unless? [.value, .comma, .closeMap] false false fuel (r.goTo rest)
        let (value, r) ← value? [.comma, .closeMap] false fuel r
        let (entries, r) ← flowEntries? false fuel r
        return ((key, value) :: entries, r)
      | _ =>
        let (key, r) ← read? false false fuel (r.goTo tokens)
        let (entries, r) ← flowEntries? false fuel r
        return ((key, empty) :: entries, r)

end

/-! ## Numbers -/

mutual

/-- The values that have a number, in the order of the text. -/
def numbered : Node → List (Nat × Node)
  | scalar _ | reference _ => []
  | list items => numberedItems items
  | map entries => numberedEntries entries
  | anchored id node => (id, node) :: numbered node

/-- The values in a list that have a number. -/
def numberedItems : List Node → List (Nat × Node)
  | [] => []
  | item :: items => numbered item ++ numberedItems items

/-- The values in a table that have a number. -/
def numberedEntries : List (Node × Node) → List (Nat × Node)
  | [] => []
  | (key, value) :: entries => numbered key ++ numbered value ++ numberedEntries entries

end

end Node

/-! ## Documents -/

/-- A document: its value, and the values with a number, the latest first. -/
structure Document where
  root : Node
  numbered : List (Nat × Node) := []
  deriving Repr, Inhabited

namespace Document

/-- A value itself, without its number and in place of an alias. -/
def resolve (d : Document) : Node → Node
  | .anchored _ node => node
  | .reference id => (d.numbered.lookup id).getD .empty
  | node => node

/-! ### Directives -/

/-- Whether a version of the language is understood. -/
def knownVersion (major minor : Nat) : Bool := major == 1 && (minor == 1 || minor == 2)

/-- Reads the directives at the head of a document: one version at most, and what each handle
stands for once at most.  The answer has the handles and the tokens behind. -/
def directives? (version : Bool) (handles : Tag.Handles) :
    List Token → Option (Tag.Handles × List Token)
  | .directive (.version major minor) :: rest =>
    if version || !knownVersion major minor then none else directives? true handles rest
  | .directive (.handle name meaning) :: rest =>
    if (handles.lookup name).isSome then none
    else directives? version ((name, meaning) :: handles) rest
  | tokens => some (handles, tokens)

/-- Whether a token belongs to the frame of a document and not to its value. -/
def isFrame : Token → Bool
  | .directive _ | .documentStart | .documentEnd => true
  | _ => false

/-- Reads the value of a document from its tokens, in front of which may stand directives and
a mark. -/
def root? (tokens : List Token) : Option (Node × TokenReader) :=
  let fuel := 4 * tokens.length + 4
  match tokens with
  | .directive _ :: _ | .documentStart :: _ => do
    let (handles, rest) ← directives? false [] tokens
    match rest with
    | .documentStart :: rest =>
      let r : TokenReader := { tokens := rest, handles := handles ++ Tag.standardHandles }
      if rest.head?.all isFrame then return (.empty, r) else Node.read? true false fuel r
    | _ => none
  | _ => Node.read? true false fuel { tokens := tokens }

def ofTokens? : List Token → Option Document
  | [] => some { root := .empty }
  | tokens => do
    let (root, r) ← root? tokens
    if r.tokens.all (· == .documentEnd) then
      return { root := root, numbered := root.numbered.reverse }
    else none

def ofText? (text : String) : Option Document := do ofTokens? (← Token.ofText? text)

end Document

end Yaml
end PaletteBitmap

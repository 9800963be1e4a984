import PhpLint.Toml.Node
import PhpLint.Toml.Numbers

/-!
# TOML documents

A document is a list of statements, one a line: headers, headers in double brackets, and keys with
their values.  Values nest in arrays and inline tables, but no deeper than a fixed bound, and a
dotted key has fewer parts than that bound.

`Document.read?` answers the table that a text writes, or nothing when it is no TOML document.
-/

namespace PhpLint.Toml

open Reader

/-- Arrays and inline tables nest less deep than this, and dotted keys have fewer parts. -/
def depthLimit : Nat := 80

/-- A character of a bare key. -/
def isBareChar (c : Char) : Bool := c.isAlphanum || c == '-' || c == '_'

/-- One part of a key. -/
def simpleKey : Reader Text := fun t =>
  match t.head? with
  | some '"' => basicString t
  | some '\'' => literalString t
  | _ => run1 isBareChar t

/-- A key: its parts between dots. -/
def dottedKey : Reader (List Text) := do
  let part : Reader Text := do
    blanks
    let key ← simpleKey
    blanks
    return key
  let parts ← separated part (literal ['.'])
  if parts.isEmpty ∨ depthLimit ≤ parts.length then failure else return parts

/-- A key and its value, given how values are read. -/
def keyValue (value : Reader Value) : Reader (List Text × Value) := do
  let key ← dottedKey
  literal ['=']
  blanks
  return (key, ← value)

/-- A value under a key, entered into a table. -/
def enterPair (entries : Nodes) (pair : List Text × Value) : Option Nodes :=
  match pair.1.getLast? with
  | some key => entries.enter pair.2 pair.1.dropLast key
  | none => none

/-- The elements of an array after its opening bracket. -/
def arrayRest (value : Reader Value) : Reader Value := do
  let element : Reader Value := do
    gaps
    let v ← value
    gaps
    return v
  let elements ← separated element (literal [','])
  if !elements.isEmpty then
    let _ ← maybe (literal [','])
  gaps
  literal [']']
  return .array elements

/-- The entries of an inline table after its opening brace. -/
def inlineRest (value : Reader Value) : Reader Value := do
  let pair : Reader (List Text × Value) := do
    let p ← keyValue value
    blanks
    return p
  let pairs ← separated pair (literal [','])
  blanks
  literal ['}']
  match pairs.foldlM enterPair [] with
  | some entries => return .table (finishEntries entries)
  | none => failure

/-- A value with at most `depth` arrays and inline tables around each other. -/
def value : (depth : Nat) → Reader Value
  | 0, t => simple t
  | depth + 1, t =>
    match t with
    | '[' :: rest => arrayRest (value depth) rest
    | '{' :: rest => inlineRest (value depth) rest
    | _ => simple t
where
  simple (t : Text) : Option (Value × Text) :=
    match t.head? with
    | some '"' | some '\'' => (string t).map fun (s, rest) => (.string s, rest)
    | some 't' => (literal "true".toList t).map fun (_, rest) => (.boolean true, rest)
    | some 'f' => (literal "false".toList t).map fun (_, rest) => (.boolean false, rest)
    | _ => numeric t

/-- The table that statements belong to: its path and whether it is an element of a list. -/
structure Building where
  root : Nodes := []
  path : List Text := []

/-- A statement read and carried out. -/
def statement (b : Building) : Reader Building := do
  match ← peek with
  | some '[' =>
    literal ['[']
    let element := (← maybe (literal ['['])).isSome
    let path ← dottedKey
    literal [']']
    if element then literal [']']
    lineTrailing
    match path.getLast? with
    | none => failure
    | some key =>
      let change := if element then Nodes.openElement key else Nodes.openTable key
      return ⟨← Nodes.atHeader change path.dropLast b.root, path⟩
  | _ =>
    let pair ← keyValue (value (depthLimit - 1))
    lineTrailing
    return { b with root := ← Nodes.atHeader (enterPair · pair) b.path b.root }

/-- Statements up to the end of the text, at most `fuel` lines of them. -/
def statements : (fuel : Nat) → Building → Reader Building
  | 0, b => do
    atEnd
    return b
  | fuel + 1, b => do
    blanks
    match ← peek with
    | none => return b
    | some c =>
      if c = '#' then
        lineTrailing
        statements fuel b
      else if c = '\n' ∨ c = '\r' then
        newline
        statements fuel b
      else statements fuel (← statement b)

namespace Document

/-- A text without a byte order mark in front. -/
def dropMark (t : Text) : Text :=
  match t with
  | c :: rest => if c.toNat = 0xFEFF then rest else t
  | [] => []

/-- The table that a document writes. -/
def read? (t : Text) : Option Entries :=
  let text := dropMark t
  match statements (text.length + 1) {} text with
  | some (b, []) => some (finishEntries b.root)
  | _ => none

end Document

end PhpLint.Toml

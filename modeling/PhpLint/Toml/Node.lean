import PhpLint.Toml.Value

/-!
# The tables of a document under construction

Statements build a tree of tables.  A table remembers its **origin**, which decides what may still be
added to it: a header opened it, a longer header or a dotted key implied it.  No table is opened by a
header twice, no header opens a table that a dotted key implied, and the table to which a dotted key
adds is one that dotted keys implied.
-/

namespace PhpLint.Toml

/-- What brought a table into being. -/
inductive Origin
  | header
  | longerHeader
  | dottedKey
  deriving DecidableEq, Repr

/-- What a key leads to while a document is read. -/
inductive Node
  | value (v : Value)
  | table (origin : Origin) (entries : List (Text × Node))
  /-- Tables opened by headers in double brackets, the last one first. -/
  | tables (elements : List (List (Text × Node)))
  deriving Inhabited

/-- The entries of a table under construction. -/
abbrev Nodes := List (Text × Node)

namespace Nodes

/-- What a key leads to. -/
def get? (entries : Nodes) (key : Text) : Option Node := entries.lookup key

/-- The entries with a key leading somewhere else. -/
def put (entries : Nodes) (key : Text) (node : Node) : Nodes :=
  if entries.any (·.1 == key) then entries.map fun e => if e.1 == key then (key, node) else e
  else entries ++ [(key, node)]

/-- A change of the table that a header's path leads to; tables on the way are implied. -/
def atHeader (change : Nodes → Option Nodes) : (path : List Text) → Nodes → Option Nodes
  | [], entries => change entries
  | key :: path, entries => do
    let node ← match entries.get? key with
      | none => (atHeader change path []).map (Node.table .longerHeader)
      | some (.table origin inner) => (atHeader change path inner).map (Node.table origin)
      | some (.tables (last :: earlier)) =>
        (atHeader change path last).map fun new => Node.tables (new :: earlier)
      | some _ => none
    return entries.put key node

/-- A value entered under a dotted key; tables on the way are implied.  The last of them holds the
value, so it must not come from a header; those before it may, unless a header opened them. -/
def enter (value : Value) : (path : List Text) → (key : Text) → Nodes → Option Nodes
  | [], key, entries =>
    if (entries.get? key).isSome then none else some (entries.put key (.value value))
  | step :: path, key, entries => do
    let node ← match entries.get? step with
      | none => (enter value path key []).map (Node.table .dottedKey)
      | some (.table .dottedKey inner) => (enter value path key inner).map (Node.table .dottedKey)
      | some (.table .longerHeader inner) =>
        if path.isEmpty then none
        else (enter value path key inner).map (Node.table .longerHeader)
      | some (.tables (last :: earlier)) =>
        if path.isEmpty then none
        else (enter value path key last).map fun new => Node.tables (new :: earlier)
      | some _ => none
    return entries.put step node

/-- The entries of the table that a header opens. -/
def openTable (key : Text) (entries : Nodes) : Option Nodes :=
  match entries.get? key with
  | none => some (entries.put key (.table .header []))
  | some (.table .longerHeader inner) => some (entries.put key (.table .header inner))
  | some _ => none

/-- The entries with one more table in the list that a header in double brackets opens. -/
def openElement (key : Text) (entries : Nodes) : Option Nodes :=
  match entries.get? key with
  | none => some (entries.put key (.tables [[]]))
  | some (.tables elements) => some (entries.put key (.tables ([] :: elements)))
  | some _ => none

end Nodes

mutual

/-- The value that a finished node holds. -/
def Node.finish : Node → Value
  | .value v => v
  | .table _ entries => .table (finishEntries entries)
  | .tables elements => .array (finishElements elements).reverse

/-- The entries of a finished table. -/
def finishEntries : List (Text × Node) → List (Text × Value)
  | [] => []
  | (key, node) :: rest => (key, node.finish) :: finishEntries rest

/-- The tables of a finished list, in the order in which they are kept. -/
def finishElements : List (List (Text × Node)) → List Value
  | [] => []
  | entries :: rest => .table (finishEntries entries) :: finishElements rest

end

end PhpLint.Toml

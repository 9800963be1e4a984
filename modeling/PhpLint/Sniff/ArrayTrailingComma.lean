import PhpLint.Sniff

/-!
# Commas after the last element of an array

An array literal, short or long, has no comma after its last element.  A square bracket opens a
literal unless it stands after something that can be indexed.
-/

namespace PhpLint.ArrayTrailingComma

/-- A square bracket after a token of this kind takes an element of a value. -/
def isIndexable : Kind → Bool
  | .variableName | .identifier | .quoted => true
  | .closes .round | .closes .square | .closes .curly => true
  | _ => false

/-- The opening bracket of the array literal that starts at an index. -/
def opener? (s : TokenStream) (i : Nat) : Option Nat :=
  if s.isAt i (.opens .square) then
    if (s.previousSignificant i).any (s.has · isIndexable) then none else some i
  else if s.isAt i (.keyword .kwArray) then
    (s.nextSignificant i).filter (s.isAt · (.opens .round))
  else none

/-- The findings at an array literal that may start at an index. -/
def findings (ctx : FileContext) (i : Nat) : List Finding :=
  let s := ctx.stream
  let comma? := do
    let opener ← opener? s i
    let closer ← s.partner? opener
    let last ← s.previousSignificant closer
    if opener < last ∧ s.isAt last .comma then some last else none
  match comma? with
  | some comma =>
    [{ index := comma, reason := "Found", message := "Trailing array comma is forbidden" }]
  | none => []

/-- The check for commas after the last element of an array. -/
def sniff (severity : Severity) : Sniff where
  name := "forbidden-array-trailing-comma"
  code := "PS004"
  description := "Forbids a comma after the last array element"
  severity
  listensTo := [.opens .square, .keyword .kwArray]
  findings

end PhpLint.ArrayTrailingComma

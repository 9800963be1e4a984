import PhpLint.FileContext

/-!
# Sniffs

A **sniff** checks one rule.  It listens for some kinds of tokens and, at each token of these kinds,
answers its **findings**: at which token the rule is broken, in what way, and which other tokens have
to do with it.  A finding knows nothing of files; the violation that it becomes takes its place from
the file's context and its code, name and severity from the sniff.
-/

namespace PhpLint

/-- A rule broken at a token. -/
structure Finding where
  /-- The index of the token. -/
  index : Nat
  reason : String
  message : String
  /-- Further tokens and what they have to do with it. -/
  labels : List (Nat × String) := []
  deriving DecidableEq, Repr

/-- A check of one rule. -/
structure Sniff where
  name : String
  code : String
  description : String := ""
  severity : Severity := .error
  /-- The kinds of tokens at which it is asked. -/
  listensTo : List Kind
  findings : FileContext → Nat → List Finding

namespace Sniff

/-- To allow an error takes a reason. -/
def requiresReason (sniff : Sniff) : Bool := sniff.severity == .error

/-- The violation that a finding becomes. -/
def violation (sniff : Sniff) (ctx : FileContext) (f : Finding) : Violation where
  code := sniff.code
  rule := sniff.name
  reason := some f.reason
  severity := sniff.severity
  location := ctx.location f.index
  message := f.message
  suggestion := none
  labels := f.labels.map fun (i, message) => ctx.label i message

/-- The violations that the sniff finds at a token. -/
def process (sniff : Sniff) (ctx : FileContext) (i : Nat) : List Violation :=
  (sniff.findings ctx i).map (sniff.violation ctx)

end Sniff

end PhpLint

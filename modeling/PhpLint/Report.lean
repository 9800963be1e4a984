import PhpLint.Violation

/-!
# Reports

The outcome of a run: the violations and the number of files that were checked.
-/

namespace PhpLint

/-- The outcome of a run. -/
structure Report where
  violations : List Violation
  filesChecked : Nat
  deriving DecidableEq, Repr

namespace Report

/-- The number of violations of one severity. -/
def count (r : Report) (s : Severity) : Nat := (r.violations.filter (·.severity == s)).length

/-- Some violation reaches a threshold. -/
def reaches (r : Report) (threshold : Severity) : Bool :=
  r.violations.any (·.severity.reaches threshold)

/-- Some violation is an error. -/
def hasErrors (r : Report) : Bool := r.violations.any (·.severity == .error)

/-- The violations in the order of their places; those at one place keep their order. -/
def sorted (r : Report) : Report :=
  { r with violations := r.violations.mergeSort fun a b => (a.location.order b.location).isLE }

/-- The counts of a report in words. -/
def totals (r : Report) : String :=
  s!"{r.count .error} error(s), {r.count .warning} warning(s), {r.count .info} info(s) in " ++
    s!"{r.filesChecked} file(s)"

/-- The violations that reach a threshold, as the text of a failed test. -/
def failureText (r : Report) (threshold : Severity) : String :=
  let failing := r.violations.filter (·.severity.reaches threshold)
  s!"\n=== php-standards: {failing.length} violation(s) ===\n\n" ++
    String.join (failing.map fun v => v.paragraph ++ "\n") ++ "Total: " ++ r.totals ++ "\n"

end Report

end PhpLint

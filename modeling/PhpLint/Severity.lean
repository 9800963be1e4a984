/-!
# Severities

How grave a violation is.  The three levels are ordered, and a check fails when a violation reaches
the level that was chosen as its threshold.
-/

namespace PhpLint

/-- How grave a violation is. -/
inductive Severity
  | info | warning | error
  deriving DecidableEq, Repr

namespace Severity

/-- All severities, in ascending order. -/
def all : List Severity := [info, warning, error]

/-- The place of a severity in the order. -/
def rank : Severity → Nat
  | info => 0
  | warning => 1
  | error => 2

/-- How a severity is written. -/
def name : Severity → String
  | info => "info"
  | warning => "warning"
  | error => "error"

/-- The severity written as `name`. -/
def ofName? (name : String) : Option Severity := all.find? (·.name == name)

/-- A severity is read back from its name. -/
theorem ofName?_name (s : Severity) : ofName? s.name = some s := by
  cases s <;> decide

/-- The severity reaches a threshold. -/
def reaches (s threshold : Severity) : Bool := threshold.rank ≤ s.rank

end Severity

end PhpLint

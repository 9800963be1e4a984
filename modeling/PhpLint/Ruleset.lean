import PhpLint.Config
import PhpLint.Directive
import PhpLint.Sniff

/-!
# Rule sets

A **rule set** is the list of checks of a run with the severities that the configuration puts in the
place of their own.  It checks a file token by token; at each token the checks that listen for its
kind are asked in their order.  What they find passes through the allow directives of the source: an
allowed violation vanishes, or becomes a warning when the check requires a reason and there is none.
Last the configured severity of the rule, if there is one, replaces that of whatever is left.
-/

namespace PhpLint

/-- A file that is no source text. -/
structure ParseError where
  file : FilePath
  /-- What is wrong with it. -/
  cause : String
  deriving DecidableEq, Repr

/-- The wording of a parse error. -/
def ParseError.message (e : ParseError) : String :=
  s!"Parse error in {e.file.toString}: {e.cause}"

/-- The checks of a run and the severities that replace their own. -/
structure Ruleset where
  sniffs : List Sniff
  severity? : Text → Option Severity

namespace Ruleset

/-- The checks that a configuration leaves enabled. -/
def ofConfig (sniffs : List Sniff) (config : Config) : Ruleset where
  sniffs := sniffs.filter fun sniff => config.isEnabled sniff.name.toList
  severity? := config.severity?

/-- The warning in the place of a violation that is allowed without a required reason. -/
def missingReason (sniff : Sniff) (v : Violation) : Violation where
  code := sniff.code
  rule := sniff.name
  reason := some "AllowWithoutReason"
  severity := .warning
  location := .point v.location.file v.location.line v.location.column
  message := s!"Allow directive for '{sniff.name}' is missing required reason"
  suggestion := some "Add reason=\"...\" to explain why this exception is necessary"
  labels := []

/-- What is left of a violation under the allow directives of a source. -/
def applyDirectives (source : Text) (sniff : Sniff) (v : Violation) : List Violation :=
  match Directive.check source v.location.line sniff.name.toList with
  | .denied => [v]
  | .allowed reason =>
    if sniff.requiresReason && reason.isNone then [missingReason sniff v] else []

/-- The violation with the severity that the configuration gives to its rule. -/
def applySeverity (rules : Ruleset) (sniff : Sniff) (v : Violation) : Violation :=
  { v with severity := (rules.severity? sniff.name.toList).getD v.severity }

/-- The violations that one check reports at a token. -/
def checkWith (rules : Ruleset) (ctx : FileContext) (i : Nat) (sniff : Sniff) : List Violation :=
  ((sniff.process ctx i).flatMap (applyDirectives ctx.source sniff)).map
    (rules.applySeverity sniff)

/-- The violations at a token. -/
def checkToken (rules : Ruleset) (ctx : FileContext) (i : Nat) : List Violation :=
  (rules.sniffs.filter fun sniff => ctx.stream.has i sniff.listensTo.contains).flatMap
    (rules.checkWith ctx i)

/-- The violations in a file, in the order of the tokens at which they were found. -/
def check (rules : Ruleset) (ctx : FileContext) : List Violation :=
  (List.range ctx.stream.size).flatMap (rules.checkToken ctx)

/-- Violations in the order of their lines and columns; those at one place keep their order. -/
def sortByLine (violations : List Violation) : List Violation :=
  violations.mergeSort fun a b => (a.location.lineOrder b.location).isLE

/-- The violations in a source that is checked by itself, so that only its own declarations are
known. -/
def checkSource (rules : Ruleset) (base path : FilePath) (source : Text) :
    Except ParseError (List Violation) :=
  match TokenStream.ofSource source with
  | .error e => .error ⟨path, e.message⟩
  | .ok s =>
    .ok (sortByLine (rules.check (.under base path source s (.ofStreams [s]))))

end Ruleset

end PhpLint

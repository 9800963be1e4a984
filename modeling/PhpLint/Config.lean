import PhpLint.FilePath
import PhpLint.Severity
import PhpLint.Toml.Document
import PhpLint.Toml.Record

/-!
# Configuration

What a project says about its checks: which preset to take, from which severity on a run fails,
which files to check, and for each rule whether it is enabled, how grave it is, and the options of
its check.  A configuration is a TOML document; what it does not say has a default, what it says
about other things is ignored, and a value of the wrong type makes all of it unreadable.
-/

namespace PhpLint

/-- What a project says about one rule. -/
structure RuleConfig where
  enabled : Option Bool := none
  severity : Option Severity := none
  /-- The options of the check. -/
  options : Toml.Entries := []
  deriving DecidableEq, Repr

/-- Which files are checked. -/
structure AnalyzerConfig where
  /-- The file or directory to check. -/
  root : FilePath := ⟨".".toList⟩
  /-- Patterns of paths that are left out. -/
  exclude : List Text := []
  /-- The extensions of files that are checked. -/
  extensions : List Text := ["php".toList]
  /-- The ignore files of version control are heeded. -/
  respectGitignore : Bool := true
  deriving DecidableEq, Repr

/-- What a project says about its checks. -/
structure Config where
  preset : Option Text := none
  failOn : Option Severity := none
  analyzer : AnalyzerConfig := { exclude := ["**/vendor/**".toList, "**/node_modules/**".toList] }
  rules : List (Text × RuleConfig) := []
  deriving DecidableEq, Repr

namespace Severity

/-- The severity that a value names. -/
def ofValue? (v : Toml.Value) : Option Severity :=
  v.asWord?.bind fun word => ofName? (String.ofList word)

end Severity

namespace RuleConfig

/-- The key under which a date that stands for a table keeps its text. -/
def dateKey : Text := "$__toml_private_datetime".toList

/-- What a value says about a rule.  All entries but the common two are options. -/
def ofValue? : Toml.Value → Option RuleConfig
  | .table entries => do
    let enabled ← Toml.Entries.field? entries "enabled".toList Toml.Value.asBoolean?
    let severity ← Toml.Entries.field? entries "severity".toList Severity.ofValue?
    let options := Toml.Entries.without entries ["enabled".toList, "severity".toList]
    some { enabled, severity, options }
  | .datetime t => some { options := [(dateKey, .string t)] }
  | _ => none

/-- An option that is an integer. -/
def integer (rule : RuleConfig) (key : Text) (default : Int) : Int :=
  ((rule.options.get? key).bind Toml.Value.asInteger?).getD default

/-- An option that is a text. -/
def text (rule : RuleConfig) (key default : Text) : Text :=
  ((rule.options.get? key).bind Toml.Value.asString?).getD default

/-- The texts of an option that is an array. -/
def texts (rule : RuleConfig) (key : Text) : List Text :=
  (((rule.options.get? key).bind Toml.Value.asArray?).getD []).filterMap Toml.Value.asString?

end RuleConfig

namespace AnalyzerConfig

/-- The names of the settings, in order. -/
def fieldNames : List Text :=
  ["root".toList, "exclude".toList, "extensions".toList, "respect_gitignore".toList]

/-- What a value says about the files to check. -/
def ofValue? (v : Toml.Value) : Option AnalyzerConfig := do
  let fields ← v.fields? fieldNames
  let default : AnalyzerConfig := {}
  let root ← fields.field? "root".toList Toml.Value.asString?
  let exclude ← fields.field? "exclude".toList Toml.Value.asTexts?
  let extensions ← fields.field? "extensions".toList Toml.Value.asTexts?
  let respect ← fields.field? "respect_gitignore".toList Toml.Value.asBoolean?
  some
    { root := (root.map FilePath.mk).getD default.root
      exclude := exclude.getD default.exclude
      extensions := extensions.getD default.extensions
      respectGitignore := respect.getD default.respectGitignore }

end AnalyzerConfig

namespace Config

/-- The rules in a table of rules. -/
def rulesOf? : Toml.Value → Option (List (Text × RuleConfig))
  | .table entries => entries.mapM fun (name, v) => (RuleConfig.ofValue? v).map (name, ·)
  | _ => none

/-- The configuration that a table writes. -/
def ofEntries? (entries : Toml.Entries) : Option Config := do
  let default : Config := {}
  let preset ← entries.field? "preset".toList Toml.Value.asString?
  let failOn ← entries.field? "fail_on".toList Severity.ofValue?
  let analyzer ← entries.field? "analyzer".toList AnalyzerConfig.ofValue?
  let rules ← entries.field? "rules".toList rulesOf?
  some
    { preset
      failOn
      analyzer := analyzer.getD default.analyzer
      rules := rules.getD default.rules }

/-- The configuration that a document writes. -/
def ofText? (t : Text) : Option Config := (Toml.Document.read? t).bind ofEntries?

/-- What is said about a rule. -/
def rule? (config : Config) (name : Text) : Option RuleConfig := config.rules.lookup name

/-- The rule is enabled, as it is unless something else is said. -/
def isEnabled (config : Config) (name : Text) : Bool :=
  ((config.rule? name).bind (·.enabled)).getD true

/-- The severity that takes the place of the rule's own. -/
def severity? (config : Config) (name : Text) : Option Severity :=
  (config.rule? name).bind (·.severity)

/-- A run fails when a violation reaches this severity. -/
def threshold (config : Config) : Severity := config.failOn.getD .error

end Config

end PhpLint

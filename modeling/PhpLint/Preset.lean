import PhpLint.Config
import PhpLint.Sniff.ArrayTrailingComma
import PhpLint.Sniff.DocCommentSpacing
import PhpLint.Sniff.FunctionComment
import PhpLint.Sniff.OperandOrder
import PhpLint.Sniff.StrictDeclaration

/-!
# Presets

A preset is a choice of checks.  The checks take their options from the configuration; an option
that is missing or makes no sense has its default.  Whether a rule is enabled, and its severity in
the configuration, are no matter of the preset: the checks are built with their own severity.
-/

namespace PhpLint

/-- A choice of checks. -/
inductive Preset
  /-- Every check. -/
  | standard
  /-- The declaration of strict types alone. -/
  | minimal
  deriving DecidableEq, Repr

/-- The number of blank lines that an option gives. -/
def RuleConfig.lineCount (rule : RuleConfig) (key : String) (default : Nat) : Nat :=
  let n := rule.integer key.toList default
  if n < 0 then default else n.toNat

/-- The number of blank lines in each place. -/
def RuleConfig.spacing (rule : RuleConfig) : DocCommentSpacing.Spacing :=
  let default : DocCommentSpacing.Spacing := {}
  { beforeFirst := rule.lineCount "lines_before_first_content" default.beforeFirst
    afterDescription :=
      rule.lineCount "lines_between_description_and_annotations" default.afterDescription
    betweenDifferent :=
      rule.lineCount "lines_between_different_annotations" default.betweenDifferent
    betweenSame := rule.lineCount "lines_between_same_annotations" default.betweenSame
    afterLast := rule.lineCount "lines_after_last_content" default.afterLast }

/-- The classes that tests extend. -/
def RuleConfig.testClasses (rule : RuleConfig) : List Text :=
  match rule.texts "test_classes".toList with
  | [] => FunctionComment.defaultTestClasses
  | classes => classes

/-- The order of operands that is enforced. -/
def RuleConfig.operandStyle (rule : RuleConfig) : OperandOrder.Style :=
  match OperandOrder.Style.ofText (rule.text "style".toList "require".toList) with
  | .ok style => style
  | .error _ => .require

namespace Preset

/-- The preset of a name in any case. -/
def ofName? (name : Text) : Option Preset :=
  let lower := Unicode.lowercase name
  if lower = "standard".toList ∨ lower = "recommended".toList then some .standard
  else if lower = "minimal".toList then some .minimal
  else none

/-- The checks of a preset, with the options of a configuration. -/
def sniffs (preset : Preset) (config : Config) : List Sniff :=
  let rule (name : String) : RuleConfig := (config.rule? name.toList).getD {}
  let strict := StrictDeclaration.sniff .error
  match preset with
  | .minimal => [strict]
  | .standard =>
    [strict,
     FunctionComment.sniff .error (rule "function-comment").testClasses,
     DocCommentSpacing.sniff .error (rule "doc-comment-spacing").spacing,
     ArrayTrailingComma.sniff .error,
     OperandOrder.sniff .error (rule "yoda-condition").operandStyle]

end Preset

/-- The preset that is asked for; an unknown name asks for the standard one. -/
def Config.chosenPreset (config : Config) : Preset :=
  (config.preset.bind Preset.ofName?).getD .standard

/-- The checks that a configuration asks for. -/
def Config.sniffs (config : Config) : List Sniff := config.chosenPreset.sniffs config

end PhpLint

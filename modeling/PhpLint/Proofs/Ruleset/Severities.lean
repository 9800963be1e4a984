import PhpLint.Proofs.Ruleset.Independence
import PhpLint.Proofs.Ruleset.Reasons

/-!
# Severities from the configuration

A violation is reported with the severity of its check, and a reminder that an allowed violation lacks
a reason as a warning.  A severity from the configuration comes last and takes the place of whatever
severity a violation of the rule has (`check_eq_map_regrade`).  So it sets the severity of what the
check finds and of the reminders of the rule as well: a reminder is a warning as long as the
configuration gives its rule no severity, and an error where the configuration asks for errors
(`severities_configured`).
-/

namespace PhpLint

namespace Config

variable {config : Config} {name other : Text} {severity : Severity}

/-- The configuration with a severity for one rule, and all else that it says kept. -/
def setSeverity (config : Config) (name : Text) (severity : Severity) : Config :=
  { config with
    rules := (name, { (config.rule? name).getD {} with severity := some severity }) ::
      config.rules }

/-- A severity is set for its rule alone. -/
theorem rule?_setSeverity :
    (config.setSeverity name severity).rule? other =
      if other = name then some { (config.rule? name).getD {} with severity := some severity }
      else config.rule? other := by
  unfold rule? setSeverity
  rw [List.lookup_cons]
  by_cases hname : other = name
  · rw [if_pos hname, hname, beq_self_eq_true]
    rfl
  · rw [if_neg hname, beq_false_of_ne hname]

/-- The severity that was set is the one that is configured. -/
theorem severity?_setSeverity :
    (config.setSeverity name severity).severity? other =
      if other = name then some severity else config.severity? other := by
  unfold severity?
  rw [rule?_setSeverity]
  by_cases hname : other = name
  · rw [if_pos hname, if_pos hname]
    rfl
  · rw [if_neg hname, if_neg hname]

/-- Which rules are enabled does not depend on their severities. -/
theorem isEnabled_setSeverity :
    (config.setSeverity name severity).isEnabled other = config.isEnabled other := by
  unfold isEnabled
  rw [rule?_setSeverity]
  by_cases hname : other = name
  · subst hname
    rw [if_pos rfl]
    cases config.rule? other <;> rfl
  · rw [if_neg hname]

end Config

namespace Ruleset

variable {rules : Ruleset} {ctx : FileContext} {sniff : Sniff} {sniffs : List Sniff}
  {config : Config} {v : Violation} {i : Nat}

/-! ## The last step -/

/-- The rules without severities from a configuration. -/
def ungraded (rules : Ruleset) : Ruleset := { rules with severity? := fun _ => none }

/-- The violation in the severity that the configuration gives to its rule. -/
def regrade (rules : Ruleset) (v : Violation) : Violation :=
  { v with severity := (rules.severity? v.rule.toList).getD v.severity }

/-- The configured severity of a violation is that of its rule. -/
theorem applySeverity_of_rule (h : v.rule = sniff.name) :
    rules.applySeverity sniff v = rules.regrade v := by
  rw [applySeverity, regrade, h]

theorem applySeverity_ungraded : rules.ungraded.applySeverity sniff v = v := rfl

/-- What one check reports is graded last of all. -/
theorem checkWith_eq_map_regrade :
    rules.checkWith ctx i sniff = (rules.ungraded.checkWith ctx i sniff).map rules.regrade := by
  unfold checkWith
  rw [List.map_map]
  refine List.map_congr_left fun w hw => ?_
  obtain ⟨u, hu, hw⟩ := List.mem_flatMap.1 hw
  have hstamped := (stamped_of_mem_process hu).of_mem_applyDirectives hw
  exact applySeverity_of_rule hstamped.rule

/-- **The configuration comes last**: what is reported under its severities is what is reported without
them, every violation in the severity of its rule. -/
theorem check_eq_map_regrade (rules : Ruleset) (ctx : FileContext) :
    rules.check ctx = (rules.ungraded.check ctx).map rules.regrade := by
  unfold check
  rw [List.map_flatMap]
  refine List.flatMap_congr fun i _ => ?_
  unfold checkToken
  rw [List.map_flatMap]
  exact List.flatMap_congr fun sniff _ => checkWith_eq_map_regrade

/-- Under the directives of a source a violation stays as it is or gives way to a reminder. -/
theorem eq_or_missingReason_of_mem_applyDirectives {source : Text} {w : Violation}
    (h : v ∈ applyDirectives source sniff w) : v = w ∨ v = missingReason sniff w := by
  unfold applyDirectives at h
  split at h
  · exact .inl (List.mem_singleton.1 h)
  · exact .inr (List.mem_singleton.1 (List.mem_ite_nil_right.1 h).2)

/-- Without severities from a configuration, a violation is as its check found it or a reminder. -/
theorem cases_of_mem_ungraded (h : v ∈ rules.ungraded.check ctx) :
    ∃ sniff ∈ rules.sniffs, v.rule = sniff.name ∧ v.code = sniff.code ∧
      ((∃ i, ∃ f ∈ sniff.findings ctx i, v = sniff.violation ctx f) ∨
        ∃ w, v = missingReason sniff w) := by
  obtain ⟨i, -, h⟩ := List.mem_flatMap.1 h
  obtain ⟨sniff, hsniff, h⟩ := List.mem_flatMap.1 h
  have hstamped := stamped_of_mem_checkWith h
  obtain ⟨w, hw, rfl⟩ := List.mem_map.1 h
  obtain ⟨u, hu, hw⟩ := List.mem_flatMap.1 hw
  obtain ⟨f, hf, rfl⟩ := List.mem_map.1 hu
  refine ⟨sniff, List.mem_of_mem_filter hsniff, hstamped.rule, hstamped.code, ?_⟩
  rw [applySeverity_ungraded]
  exact (eq_or_missingReason_of_mem_applyDirectives hw).imp (⟨i, f, hf, ·⟩) (⟨_, ·⟩)

/-! ## What severity a violation has -/

/-- The severity of a violation that some checks report under a configuration. -/
structure Graded (sniffs : List Sniff) (config : Config) (v : Violation) : Prop where
  /-- A reminder is a warning, unless the configuration gives its rule a severity. -/
  reminder : v.AsksForReason → v.severity = (config.severity? v.rule.toList).getD .warning
  /-- It fails a run at the threshold of errors exactly when that severity is the one of errors. -/
  fails : v.AsksForReason →
    (v.severity.reaches .error = true ↔ config.severity? v.rule.toList = some .error)
  /-- What is no reminder has the severity of its check, unless the configuration gives its rule one. -/
  finding : ¬v.AsksForReason → ∃ sniff ∈ sniffs, v.rule = sniff.name ∧ v.code = sniff.code ∧
    v.severity = (config.severity? v.rule.toList).getD sniff.severity

/-- A severity that takes the place of a warning reaches the threshold of errors if it is that of
errors. -/
theorem reaches_getD_warning_iff {severity? : Option Severity} :
    (severity?.getD .warning).reaches .error = true ↔ severity? = some .error := by
  cases severity? with
  | none => decide
  | some severity => cases severity <;> decide

/-- Each violation has the severity of its rule, of its check, or of a reminder. -/
theorem graded_of_mem_check (hsniffs : ∀ sniff ∈ sniffs, sniff.LeavesReminders)
    (h : v ∈ (ofConfig sniffs config).check ctx) : Graded sniffs config v := by
  rw [check_eq_map_regrade] at h
  obtain ⟨w, hw, rfl⟩ := List.mem_map.1 h
  obtain ⟨sniff, hsniff, hrule, hcode, hfound⟩ := cases_of_mem_ungraded hw
  have hmem : sniff ∈ sniffs := List.mem_of_mem_filter hsniff
  rcases hfound with ⟨i, f, hf, rfl⟩ | ⟨u, rfl⟩
  · have hnot : ¬(Violation.AsksForReason (sniff.violation ctx f)) := fun hreason =>
      hsniffs sniff hmem ctx i f hf (Option.some.inj hreason)
    exact ⟨fun hreason => absurd hreason hnot, fun hreason => absurd hreason hnot,
      fun _ => ⟨sniff, hmem, rfl, rfl, rfl⟩⟩
  · exact ⟨fun _ => rfl, fun _ => reaches_getD_warning_iff, fun hnot => absurd rfl hnot⟩

/-! ## Changing the severity of a rule -/

/-- The violation in another severity if it is one of a rule. -/
def setSeverityOf (name : Text) (severity : Severity) (v : Violation) : Violation :=
  if v.rule.toList = name then { v with severity } else v

variable {name : Text} {severity : Severity}

/-- A severity does not change the place. -/
theorem location_setSeverityOf : (setSeverityOf name severity v).location = v.location := by
  unfold setSeverityOf
  split <;> rfl

/-- A severity that is set changes the grade of its rule alone. -/
theorem regrade_setSeverity :
    (ofConfig sniffs (config.setSeverity name severity)).regrade v =
      setSeverityOf name severity ((ofConfig sniffs config).regrade v) := by
  unfold regrade setSeverityOf ofConfig
  dsimp only
  rw [Config.severity?_setSeverity]
  split <;> rfl

/-- A severity that is set changes the severities of its rule alone. -/
theorem check_setSeverity :
    (ofConfig sniffs (config.setSeverity name severity)).check ctx =
      ((ofConfig sniffs config).check ctx).map (setSeverityOf name severity) := by
  have hungraded : (ofConfig sniffs (config.setSeverity name severity)).ungraded =
      (ofConfig sniffs config).ungraded := by
    unfold ofConfig ungraded
    simp only [Config.isEnabled_setSeverity]
  rw [check_eq_map_regrade (ofConfig sniffs (config.setSeverity name severity)), hungraded,
    check_eq_map_regrade (ofConfig sniffs config), List.map_map]
  exact List.map_congr_left fun v _ => regrade_setSeverity

/-- A severity that is set changes no error of a source, and the severities of its rule alone. -/
theorem checkSource_setSeverity (base path : FilePath) (source : Text) :
    (ofConfig sniffs (config.setSeverity name severity)).checkSource base path source =
      ((ofConfig sniffs config).checkSource base path source).map
        (List.map (setSeverityOf name severity)) := by
  unfold checkSource
  cases TokenStream.ofSource source with
  | error e => rfl
  | ok s =>
    refine congrArg Except.ok ?_
    rw [check_setSeverity, sortByLine, sortByLine]
    refine (List.map_mergeSort fun v _ w _ => ?_).symm
    rw [location_setSeverityOf, location_setSeverityOf]

/-- The order of a report does not depend on severities. -/
theorem mergeSort_map_setSeverityOf (violations : List Violation) :
    (violations.mergeSort fun v w => (v.location.order w.location).isLE).map
        (setSeverityOf name severity) =
      (violations.map (setSeverityOf name severity)).mergeSort fun v w =>
        (v.location.order w.location).isLE := by
  refine List.map_mergeSort fun v _ w _ => ?_
  rw [location_setSeverityOf, location_setSeverityOf]

/-- A severity that is set changes the severities of its rule alone in a report. -/
theorem checkFiles_setSeverity (base : FilePath) (files : List ReadFile) :
    Analyzer.check (ofConfig sniffs (config.setSeverity name severity)) base files =
      { Analyzer.check (ofConfig sniffs config) base files with
        violations := (Analyzer.check (ofConfig sniffs config) base files).violations.map
          (setSeverityOf name severity) } := by
  unfold Analyzer.check Report.sorted
  simp only [mergeSort_map_setSeverityOf, List.map_flatMap, check_setSeverity]

/-- A severity that is set changes the severities of its rule alone in a run. -/
theorem run_setSeverity {a : Analyzer} (ha : a.rules = ofConfig sniffs config) (tree : FileTree) :
    { a with rules := ofConfig sniffs (config.setSeverity name severity) }.run tree =
      (a.run tree).map fun report =>
        { report with violations := report.violations.map (setSeverityOf name severity) } := by
  have hfiles : { a with rules := ofConfig sniffs (config.setSeverity name severity) }.files tree =
      a.files tree := rfl
  unfold Analyzer.run
  rw [hfiles, ha]
  cases a.files tree with
  | error e => rfl
  | ok files =>
    dsimp only
    cases ReadFile.ofFiles a.strict files with
    | error e => rfl
    | ok sources => exact congrArg Except.ok (checkFiles_setSeverity (a.base tree) sources)

/-! ## Whole runs -/

/-- The severities that some checks report under a configuration. -/
structure Severities (sniffs : List Sniff) (config : Config) : Prop where
  source : ∀ base path source found,
    (ofConfig sniffs config).checkSource base path source = .ok found →
      ∀ v ∈ found, Graded sniffs config v
  project : ∀ (a : Analyzer) tree report, a.rules = ofConfig sniffs config →
    a.run tree = .ok report → ∀ v ∈ report.violations, Graded sniffs config v
  /-- To set the severity of a rule is to change the severity of its violations, reminders among them,
  and nothing else. -/
  setSource : ∀ name severity base path source,
    (ofConfig sniffs (config.setSeverity name severity)).checkSource base path source =
      ((ofConfig sniffs config).checkSource base path source).map
        (List.map (setSeverityOf name severity))
  setProject : ∀ name severity (a : Analyzer) tree, a.rules = ofConfig sniffs config →
    { a with rules := ofConfig sniffs (config.setSeverity name severity) }.run tree =
      (a.run tree).map fun report =>
        { report with violations := report.violations.map (setSeverityOf name severity) }

/-- **Reminders have the severity of their rule** where the configuration gives one, and are warnings
where it gives none.  This holds in every source and every project, of all checks that leave the reason
of reminders alone. -/
theorem severities_configured (hsniffs : ∀ sniff ∈ sniffs, sniff.LeavesReminders)
    (config : Config) : Severities sniffs config := by
  constructor
  case source =>
    intro base path source found hfound v hv
    unfold checkSource at hfound
    cases hs : TokenStream.ofSource source with
    | error e =>
      rw [hs] at hfound
      cases hfound
    | ok s =>
      rw [hs] at hfound
      rw [← Except.ok.inj hfound, sortByLine, List.mem_mergeSort] at hv
      exact graded_of_mem_check hsniffs hv
  case project =>
    intro a tree report ha hreport v hv
    unfold Analyzer.run at hreport
    split at hreport
    · cases hreport
    split at hreport
    · cases hreport
    rw [← Except.ok.inj hreport, ha] at hv
    obtain ⟨file, -, hv⟩ := List.mem_flatMap.1 (List.mem_mergeSort.1 hv)
    exact graded_of_mem_check hsniffs hv
  case setSource => exact fun name severity => checkSource_setSeverity
  case setProject => exact fun name severity a tree ha => run_setSeverity ha tree

/-- Two comparisons, the first one allowed without a reason. -/
def twoComparisons : Text :=
  "<?php\n// php-standards: allow(yoda-condition)\nif ($a == 1);\nif ($a == 2);\n".toList

/-- The provided checks leave reminders alone.  Where nothing is configured, an allowed comparison
leaves a warning, and another one is an error. -/
theorem severities_configured_standard :
    (∀ sniff ∈ Config.sniffs {}, sniff.LeavesReminders) ∧
      (∃ s, TokenStream.ofSource twoComparisons = .ok s ∧
        ((ofConfig (Config.sniffs {}) {}).check
            (.under ⟨[]⟩ ⟨[]⟩ twoComparisons s (.ofStreams [s]))).map
          (fun v => (v.location.line, v.qualifiedCode, v.severity)) =
        [(1, "PS001.MissingDeclaration", .error), (3, "PS005.AllowWithoutReason", .warning),
          (4, "PS005.NotYoda", .error)]) ∧
      Severities (Config.sniffs {}) {} := by
  have hsniffs : ∀ sniff ∈ Config.sniffs {}, sniff.LeavesReminders :=
    fun _ hsniff => (Config.isProvided_of_mem_sniffs hsniff).leavesReminders
  refine ⟨hsniffs, ?_, severities_configured hsniffs {}⟩
  exact TokenStream.exists_of_map_ofSource (by decide +kernel)

/-- One comparison, allowed without a reason. -/
def allowedComparison : Text :=
  "<?php\n// php-standards: allow(yoda-condition)\nif ($a == 1);\n".toList

/-- To set the severity of a rule to that of its check makes its reminder an error: the allowed
comparison, no error without a configuration, fails a run at the threshold of errors. -/
theorem checkSource_reminder_error :
    ∃ config found found',
      Config.ofText? "[rules.yoda-condition]\nseverity = \"error\"\n".toList = some config ∧
      (ofConfig [OperandOrder.sniff .error .require] {}).checkSource ⟨[]⟩ ⟨[]⟩ allowedComparison =
        .ok found ∧
      (ofConfig [OperandOrder.sniff .error .require] config).checkSource ⟨[]⟩ ⟨[]⟩
        allowedComparison = .ok found' ∧
      (Report.mk found 1).reaches .error = false ∧ (Report.mk found' 1).reaches .error = true ∧
      ∃ v ∈ found', v.AsksForReason ∧ v.severity ≠ .warning := by
  have hplain : ((ofConfig [OperandOrder.sniff .error .require] {}).checkSource ⟨[]⟩ ⟨[]⟩
      allowedComparison).map (fun found => (Report.mk found 1).reaches .error) = .ok false := by
    decide +kernel
  have hconfigured : (Config.ofText? "[rules.yoda-condition]\nseverity = \"error\"\n".toList).map
      (fun config => ((ofConfig [OperandOrder.sniff .error .require] config).checkSource ⟨[]⟩ ⟨[]⟩
        allowedComparison).map fun found => ((Report.mk found 1).reaches .error,
          found.any fun v => decide (v.AsksForReason ∧ v.severity ≠ .warning))) =
      some (.ok (true, true)) := by
    decide +kernel
  obtain ⟨config, hconfig, hconfigured⟩ := Option.map_eq_some_iff.1 hconfigured
  obtain ⟨found, hfound, hreaches⟩ := exists_of_map_eq_ok hplain
  obtain ⟨found', hfound', hall⟩ := exists_of_map_eq_ok hconfigured
  obtain ⟨hreaches', hany⟩ := Prod.mk.inj hall
  obtain ⟨v, hv, hreminder⟩ := List.any_eq_true.1 hany
  exact ⟨config, found, found', hconfig, hfound, hfound', hreaches, hreaches', v, hv,
    of_decide_eq_true hreminder⟩

end Ruleset

end PhpLint

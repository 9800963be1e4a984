import PhpLint.Config

/-!
# Settings that are left out

A configuration may write some of the settings of a run and leave out the others.  What a table spells
are **written settings**; they go over defaults, which stay for all that is not written.

There are two sources of defaults.  One stands for a table that is not there at all, the other for the
single settings of a table that is, and they differ in the exclusions alone: a table that says nothing of
them excludes nothing.  So written settings go over the defaults of a configuration without a table as
long as the table writes exclusions (`settings_of_document`).
-/

namespace PhpLint

namespace Toml

variable {α : Type} {entries : Entries} {key : Text} {keys : List Text}

/-- A field that is left out, or holds the value that stands for something, is read as that. -/
theorem Entries.field?_eq_of_get? {decode : Value → Option α} {encode : α → Value} {a? : Option α}
    (hdecode : ∀ a, decode (encode a) = some a) (h : entries.get? key = a?.map encode) :
    entries.field? key decode = some a? := by
  unfold field?
  rw [h]
  cases a? with
  | none => rfl
  | some a => simp [hdecode]

/-- Leaving out some keys leaves the others as they are. -/
theorem Entries.get?_without (h : key ∉ keys) : (entries.without keys).get? key = entries.get? key := by
  unfold get? without
  induction entries with
  | nil => rfl
  | cons e entries ih =>
    obtain ⟨name, value⟩ := e
    by_cases hkey : key = name
    · subst hkey
      simp [h]
    · have hne : (key == name) = false := beq_false_of_ne hkey
      rw [List.lookup_cons, hne, ← ih, List.filter_cons]
      split
      · rw [List.lookup_cons, hne]
      · rfl

/-- A field is read the same when other keys are left out. -/
theorem Entries.field?_without (h : key ∉ keys) (decode : Value → Option α) :
    (entries.without keys).field? key decode = entries.field? key decode := by
  unfold field?
  rw [get?_without h]

/-- An array of strings is read as a list of texts. -/
theorem Value.asTexts?_array (texts : List Text) :
    (Value.array (texts.map .string)).asTexts? = some texts := by
  change (texts.map Value.string).mapM asString? = some texts
  induction texts with
  | nil => rfl
  | cons t texts ih =>
    rw [List.map_cons, List.mapM_cons, ih]
    rfl

end Toml

namespace AnalyzerConfig

open Toml (Entries Value)

/-- Settings of which each may be left out. -/
structure Written where
  root : Option FilePath := none
  exclude : Option (List Text) := none
  extensions : Option (List Text) := none
  respectGitignore : Option Bool := none

namespace Written

/-- The settings that are written, and defaults for those that are left out. -/
def applyTo (w : Written) (defaults : AnalyzerConfig) : AnalyzerConfig where
  root := w.root.getD defaults.root
  exclude := w.exclude.getD defaults.exclude
  extensions := w.extensions.getD defaults.extensions
  respectGitignore := w.respectGitignore.getD defaults.respectGitignore

/-- A table holds the values of the settings that are written, and says nothing of the others.  What else
it holds does not matter. -/
structure SpelledBy (w : Written) (table : Entries) : Prop where
  root : table.get? "root".toList = w.root.map fun p => .string p.text
  exclude : table.get? "exclude".toList = w.exclude.map fun texts => .array (texts.map .string)
  extensions : table.get? "extensions".toList = w.extensions.map fun texts => .array (texts.map .string)
  respectGitignore : table.get? "respect_gitignore".toList = w.respectGitignore.map .boolean

variable {w : Written} {table : Entries}

/-- What a table spells goes over the defaults of the single settings. -/
theorem SpelledBy.ofValue?_eq (h : w.SpelledBy table) : ofValue? (.table table) = some (w.applyTo {}) := by
  have hwritten : table.get? "root".toList = (w.root.map FilePath.text).map .string := by
    rw [h.root, Option.map_map]
    rfl
  have hroot : table.field? "root".toList Value.asString? = some (w.root.map FilePath.text) :=
    Entries.field?_eq_of_get? (fun _ => rfl) hwritten
  have hexclude := Entries.field?_eq_of_get? Value.asTexts?_array h.exclude
  have hextensions := Entries.field?_eq_of_get? Value.asTexts?_array h.extensions
  have hrespect : table.field? "respect_gitignore".toList Value.asBoolean? = some w.respectGitignore :=
    Entries.field?_eq_of_get? (fun _ => rfl) h.respectGitignore
  have htable : (Value.table table).fields? fieldNames = some table := rfl
  have hpath : (w.root.map FilePath.text).map FilePath.mk = w.root := by
    cases w.root <;> rfl
  unfold ofValue?
  rw [htable]
  simp only [bind, Option.bind, hroot, hexclude, hextensions, hrespect, hpath]
  rfl

/-- A table that spells nothing says nothing. -/
theorem SpelledBy.eq_empty (h : w.SpelledBy []) : w = {} := by
  obtain ⟨root, exclude, extensions, respect⟩ := w
  obtain ⟨hroot, hexclude, hextensions, hrespect⟩ := h
  simp only [Written.mk.injEq]
  exact ⟨Option.map_eq_none_iff.1 hroot.symm, Option.map_eq_none_iff.1 hexclude.symm,
    Option.map_eq_none_iff.1 hextensions.symm, Option.map_eq_none_iff.1 hrespect.symm⟩

/-- The two sources of defaults differ in the exclusions alone. -/
theorem applyTo_empty (w : Written) :
    w.applyTo {} = { w.applyTo ({} : Config).analyzer with exclude := w.exclude.getD [] } := rfl

end Written

end AnalyzerConfig

namespace Config

open Toml (Entries)
open AnalyzerConfig (Written)

/-- Each part of a configuration is read from a field of its own. -/
theorem ofEntries?_eq_some_iff {entries : Entries} {config : Config} :
    ofEntries? entries = some config ↔
      entries.field? "preset".toList Toml.Value.asString? = some config.preset ∧
      entries.field? "fail_on".toList Severity.ofValue? = some config.failOn ∧
      (entries.field? "analyzer".toList AnalyzerConfig.ofValue?).map
        (·.getD ({} : Config).analyzer) = some config.analyzer ∧
      (entries.field? "rules".toList rulesOf?).map (·.getD []) = some config.rules := by
  obtain ⟨preset, failOn, analyzer, rules⟩ := config
  unfold ofEntries?
  simp only [bind, Option.bind_eq_some_iff, Option.map_eq_some_iff, Option.some.injEq,
    Config.mk.injEq]
  constructor
  · rintro ⟨_, hpreset, _, hfailOn, _, hanalyzer, _, hrules, rfl, rfl, rfl, rfl⟩
    exact ⟨hpreset, hfailOn, ⟨_, hanalyzer, rfl⟩, ⟨_, hrules, rfl⟩⟩
  · rintro ⟨hpreset, hfailOn, ⟨_, hanalyzer, rfl⟩, ⟨_, hrules, rfl⟩⟩
    exact ⟨_, hpreset, _, hfailOn, _, hanalyzer, _, hrules, rfl, rfl, rfl, rfl⟩

variable {t : Text} {entries : Entries} {table? : Option Entries} {w : Written} {rest : Config}

/-- **Settings that a document writes go over the defaults, and those that it leaves out keep them**,
unless it has a table without exclusions: then nothing is excluded, and all else is as without one. -/
theorem settings_of_document (hread : Toml.Document.read? t = some entries)
    (htable : entries.get? "analyzer".toList = table?.map .table)
    (hspelled : w.SpelledBy (table?.getD []))
    (hrest : ofEntries? (entries.without ["analyzer".toList]) = some rest) :
    ∃ config, ofText? t = some config ∧
      config = { rest with analyzer := config.analyzer } ∧
      (table? = none ∨ w.exclude.isSome = true → config.analyzer = w.applyTo ({} : Config).analyzer) ∧
      (table?.isSome = true → w.exclude = none →
        config.analyzer = { w.applyTo ({} : Config).analyzer with exclude := [] }) := by
  obtain ⟨hpreset, hfailOn, -, hrules⟩ := ofEntries?_eq_some_iff.1 hrest
  have hsettings : entries.field? "analyzer".toList AnalyzerConfig.ofValue? =
      some (table?.map fun _ => w.applyTo {}) := by
    unfold Entries.field?
    rw [htable]
    cases table? with
    | none => rfl
    | some table => exact congrArg (Option.map some) hspelled.ofValue?_eq
  let analyzer := (table?.map fun _ => w.applyTo {}).getD ({} : Config).analyzer
  have hconfig : ofText? t = some { rest with analyzer } := by
    unfold ofText?
    rw [hread, Option.bind_some, ofEntries?_eq_some_iff]
    rw [Entries.field?_without (by decide)] at hpreset hfailOn hrules
    exact ⟨hpreset, hfailOn, by rw [hsettings]; rfl, hrules⟩
  refine ⟨_, hconfig, rfl, ?_, ?_⟩
  · intro hwritten
    cases table? with
    | none =>
      obtain rfl := hspelled.eq_empty
      rfl
    | some table =>
      obtain ⟨exclude, hexclude⟩ := Option.isSome_iff_exists.1 (hwritten.resolve_left (by simp))
      exact (Written.applyTo_empty w).trans (by simp [hexclude, Written.applyTo])
  · intro htable hexclude
    obtain ⟨table, rfl⟩ := Option.isSome_iff_exists.1 htable
    exact (Written.applyTo_empty w).trans (by rw [hexclude]; rfl)

/-- A table with exclusions, an unknown setting and a root, between a preset and a rule. -/
theorem settings_of_document_exclusions :
    ∃ config, ofText? ("preset = \"minimal\"\n[analyzer]\nexclude = [\"lib/**\"]\ndepth = 3\n" ++
        "root = \"src\"\n[rules.yoda-condition]\nenabled = false\n").toList = some config ∧
      config.preset = some "minimal".toList ∧ config.isEnabled "yoda-condition".toList = false ∧
      config.analyzer =
        { ({} : Config).analyzer with root := .ofString "src", exclude := ["lib/**".toList] } := by
  let rules : Entries := [("yoda-condition".toList, .table [("enabled".toList, .boolean false)])]
  let table : Entries := [("exclude".toList, .array [.string "lib/**".toList]),
    ("depth".toList, .integer 3), ("root".toList, .string "src".toList)]
  let entries : Entries := [("preset".toList, .string "minimal".toList),
    ("analyzer".toList, .table table), ("rules".toList, .table rules)]
  let w : Written := { root := some (.ofString "src"), exclude := some ["lib/**".toList] }
  have hread : Toml.Document.read?
      ("preset = \"minimal\"\n[analyzer]\nexclude = [\"lib/**\"]\ndepth = 3\n" ++
        "root = \"src\"\n[rules.yoda-condition]\nenabled = false\n").toList = some entries := by
    decide +kernel
  have htable : entries.get? "analyzer".toList = (some table).map .table := rfl
  have hspelled : w.SpelledBy table := ⟨rfl, rfl, rfl, rfl⟩
  obtain ⟨config, hconfig, hrest, hsettings, -⟩ := settings_of_document hread htable hspelled rfl
  refine ⟨config, hconfig, ?_, ?_, hsettings (.inr rfl)⟩
  · rw [hrest]
  · rw [hrest]
    rfl

/-- A table that writes extensions alone takes the exclusions away. -/
theorem settings_of_extensions :
    ∃ config table,
      let w : Written := { extensions := some ["php".toList, "phtml".toList] }
      Toml.Document.read? "[analyzer]\nextensions = [\"php\", \"phtml\"]\n".toList =
        some [("analyzer".toList, .table table)] ∧
      w.SpelledBy table ∧
      ofText? "[analyzer]\nextensions = [\"php\", \"phtml\"]\n".toList = some config ∧
      config.analyzer ≠ w.applyTo ({} : Config).analyzer ∧ config.analyzer.exclude = [] := by
  refine ⟨{ analyzer := { extensions := ["php".toList, "phtml".toList] } },
    [("extensions".toList, .array [.string "php".toList, .string "phtml".toList])], ?_⟩
  exact ⟨by decide +kernel, ⟨rfl, rfl, rfl, rfl⟩, by decide +kernel, by decide, rfl⟩

end Config

end PhpLint

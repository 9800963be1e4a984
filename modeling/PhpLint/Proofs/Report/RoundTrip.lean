import PhpLint.CommandLine.Program
import PhpLint.Proofs.Project.Exclusion
import PhpLint.Proofs.Project.Run

/-!
# A report is read back from its JSON

Writing a report and reading it are tied together field by field only: a violation without a reason
has no entry for it, one without a suggestion has a null, a severity is a word, and labels hold
places of their own.  Decoding undoes encoding for each of them, from the places up to the report.

The numbers of a report are counts and offsets of 64 bits, which is the one thing that a value read
from JSON has to keep to: `Fits` says so of each part.  How the text of a JSON value is parsed is left
open here.  Any parser that reads the printed text of the report's value as that value gives the
report back, so whatever is computed from the text that a run prints is what the run computes.

Main statements: `Violation.ofJson?_toJson`, `Report.ofJson?_toJson` and
`CommandLine.readBack_check`.
-/

namespace PhpLint

/-! ### Values and lists -/

namespace Json

/-- A number of 64 bits is read back. -/
@[simp] theorem asNat?_integer {n : Nat} (h : n < countLimit) : asNat? (.integer n) = some n := by
  have hn : asNat? (.integer n) = if n < countLimit then some n else none := rfl
  rw [hn, if_pos h]

/-- Lists are read back when their elements are. -/
theorem asList?_array {α : Type} {encode : α → Json} {decode : Json → Option α} {as : List α}
    (h : ∀ a ∈ as, decode (encode a) = some a) :
    asList? decode (.array (as.map encode)) = some as := by
  induction as with
  | nil => rfl
  | cons a as ih =>
    have hfirst : decode (encode a) = some a := h a List.mem_cons_self
    have hrest : (as.map encode).mapM decode = some as :=
      ih fun b hb => h b (List.mem_cons_of_mem a hb)
    simp [asList?, hfirst, hrest]

section Optional

variable {α : Type} {encode : α → Json} {decode : Json → Option α} {fields : List (String × Json)}
  {name : String} {a? : Option α}

/-- A field that is left out when there is nothing to write is read back. -/
theorem optional_of_lookup_map (hlookup : fields.lookup name = a?.map encode)
    (hnull : ∀ a, encode a ≠ .null) (hdecode : ∀ a, decode (encode a) = some a) :
    optional fields name decode = some a? := by
  unfold optional
  rw [hlookup]
  cases a? with
  | none => rfl
  | some a =>
    have hpresent := hnull a
    have hvalue := hdecode a
    cases hencode : encode a <;> simp_all

/-- A field that is null when there is nothing to write is read back. -/
theorem optional_of_lookup_ofOption (hlookup : fields.lookup name = some (ofOption encode a?))
    (hnull : ∀ a, encode a ≠ .null) (hdecode : ∀ a, decode (encode a) = some a) :
    optional fields name decode = some a? := by
  cases a? with
  | none => simp [optional, hlookup, ofOption]
  | some a =>
    apply optional_of_lookup_map _ hnull hdecode
    exact hlookup

end Optional

end Json

/-! ### The parts of a violation -/

/-- A severity is read back from its name. -/
@[simp] theorem Severity.ofJson?_toJson (s : Severity) : ofJson? s.toJson = some s :=
  ofName?_name s

/-- The numbers of a place have 64 bits. -/
structure Location.Fits (l : Location) : Prop where
  line : l.line < Json.countLimit
  column : l.column < Json.countLimit
  offset : l.offset < Json.countLimit
  length : l.length < Json.countLimit

instance (l : Location) : Decidable l.Fits :=
  decidable_of_iff
    (l.line < Json.countLimit ∧ l.column < Json.countLimit ∧ l.offset < Json.countLimit ∧
      l.length < Json.countLimit)
    ⟨fun ⟨hline, hcolumn, hoffset, hlength⟩ => ⟨hline, hcolumn, hoffset, hlength⟩,
      fun h => ⟨h.line, h.column, h.offset, h.length⟩⟩

/-- A place is read back. -/
theorem Location.ofJson?_toJson {l : Location} (h : l.Fits) : ofJson? l.toJson = some l := by
  have hfile : FilePath.ofString l.file.toString = l.file := by
    simp [FilePath.ofString, FilePath.toString]
  simp [toJson, ofJson?, Json.fields?, Json.required, List.lookup_cons, Json.asString?, h.line,
    h.column, h.offset, h.length, hfile]

/-- A label is read back when its place is. -/
theorem Label.ofJson?_toJson {l : Label} (h : l.location.Fits) : ofJson? l.toJson = some l := by
  simp [toJson, ofJson?, Json.fields?, Json.required, List.lookup_cons, Json.asString?,
    Location.ofJson?_toJson h]

namespace Violation

/-- A suggestion is read back. -/
theorem suggestionOfJson?_toJson (message : String) :
    suggestionOfJson? (suggestionToJson message) = some message := by
  simp [suggestionOfJson?, suggestionToJson, Json.fields?, Json.required, Json.asString?]

/-- The numbers of a violation have 64 bits, those of its labels included. -/
structure Fits (v : Violation) : Prop where
  location : v.location.Fits
  labels : ∀ l ∈ v.labels, l.location.Fits

instance (v : Violation) : Decidable v.Fits :=
  decidable_of_iff (v.location.Fits ∧ ∀ l ∈ v.labels, l.location.Fits)
    ⟨fun ⟨hlocation, hlabels⟩ => ⟨hlocation, hlabels⟩, fun h => ⟨h.location, h.labels⟩⟩

/-- The entries of a violation's object. -/
def entries (v : Violation) : List (String × Json) :=
  [("code", .string v.code), ("rule", .string v.rule)] ++
    (v.reason.map fun reason => ("reason", Json.string reason)).toList ++
    [("severity", v.severity.toJson), ("location", v.location.toJson),
     ("message", .string v.message), ("suggestion", Json.ofOption suggestionToJson v.suggestion),
     ("labels", .array (v.labels.map Label.toJson))]

/-- The entry of the reason is there when the reason is. -/
theorem lookup_reason (v : Violation) : v.entries.lookup "reason" = v.reason.map .string := by
  cases h : v.reason <;> simp [entries, h, List.lookup_cons]

/-- The reason does not stand in the way of the entries before and after it. -/
theorem lookup_entries (v : Violation) :
    v.entries.lookup "code" = some (.string v.code) ∧
    v.entries.lookup "rule" = some (.string v.rule) ∧
    v.entries.lookup "severity" = some v.severity.toJson ∧
    v.entries.lookup "location" = some v.location.toJson ∧
    v.entries.lookup "message" = some (.string v.message) ∧
    v.entries.lookup "suggestion" = some (Json.ofOption suggestionToJson v.suggestion) ∧
    v.entries.lookup "labels" = some (.array (v.labels.map Label.toJson)) := by
  cases h : v.reason <;> simp [entries, h, List.lookup_cons]

/-- No field of a violation stands in its object twice. -/
theorem fields?_toJson (v : Violation) : v.toJson.fields? fieldNames = some v.entries := by
  refine if_pos ?_
  cases v.reason <;> simp [fieldNames]

/-- A violation is read back, with or without a reason and a suggestion. -/
theorem ofJson?_toJson {v : Violation} (h : v.Fits) : ofJson? v.toJson = some v := by
  obtain ⟨hcode, hrule, hseverity, hlocation, hmessage, hhint, hlabels⟩ := v.lookup_entries
  have hreason : Json.optional v.entries "reason" Json.asString? = some v.reason := by
    apply Json.optional_of_lookup_map v.lookup_reason
    · intro reason
      simp
    · intro reason
      rfl
  have hsuggestion :
      Json.optional v.entries "suggestion" suggestionOfJson? = some v.suggestion := by
    apply Json.optional_of_lookup_ofOption hhint
    · intro message
      simp [suggestionToJson]
    · exact suggestionOfJson?_toJson
  have hplace : Location.ofJson? v.location.toJson = some v.location :=
    Location.ofJson?_toJson h.location
  have hplaces : Json.asList? Label.ofJson? (.array (v.labels.map Label.toJson)) = some v.labels :=
    Json.asList?_array fun l hl => Label.ofJson?_toJson (h.labels l hl)
  simp [ofJson?, v.fields?_toJson, Json.required, hcode, hrule, hreason, hseverity, hlocation, hmessage,
    hsuggestion, hlabels, hplace, hplaces, Json.asString?]

end Violation

/-! ### The report -/

namespace Report

/-- The numbers of a report have 64 bits. -/
structure Fits (r : Report) : Prop where
  filesChecked : r.filesChecked < Json.countLimit
  violations : ∀ v ∈ r.violations, v.Fits

instance (r : Report) : Decidable r.Fits :=
  decidable_of_iff (r.filesChecked < Json.countLimit ∧ ∀ v ∈ r.violations, v.Fits)
    ⟨fun ⟨hchecked, hviolations⟩ => ⟨hchecked, hviolations⟩,
      fun h => ⟨h.filesChecked, h.violations⟩⟩

/-- A report is read back. -/
theorem ofJson?_toJson {r : Report} (h : r.Fits) : ofJson? r.toJson = some r := by
  have hviolations :
      Json.asList? Violation.ofJson? (.array (r.violations.map Violation.toJson)) =
        some r.violations :=
    Json.asList?_array fun v hv => Violation.ofJson?_toJson (h.violations v hv)
  simp [toJson, ofJson?, Json.fields?, Json.required, List.lookup_cons, hviolations, h.filesChecked]

end Report

/-! ### What a run prints -/

namespace CommandLine

variable {w : Workspace} {source : ConfigSource} {path : FilePath} {filter : Option Text}
  {exclusions : List Text} {config : Config} {r : Report}

/-- Checking what a path leads to loads a configuration and ends with a report. -/
structure Finds (w : Workspace) (source : ConfigSource) (path : FilePath) (filter : Option Text)
    (exclusions : List Text) (config : Config) (r : Report) : Prop where
  loads : source.load? w = some config
  runs : ∃ a, Analyzer.build w.current (some path) (chosenSniffs config filter) exclusions config
    false = .ok a ∧ a.run w.tree = .ok r

/-- The status and the output of a check are those of its report. -/
theorem check_of_finds (h : Finds w source path filter exclusions config r)
    (format : OutputFormat) :
    ∃ source?, check w source path format filter exclusions =
      { status := if r.reaches config.threshold then 1 else 0
        output := r.shown format source? } := by
  obtain ⟨a, hbuild, hrun⟩ := h.runs
  refine ⟨fun file => w.text? ((a.base w.tree).join file), ?_⟩
  simp only [check, h.loads, hbuild, hrun]

/-- **A report is read back from its JSON.**  Whatever the text of the value is, a parser that reads
the value from the text gives the report; and what the text that a check prints says of the status,
the counts, the order and the failures is what the check found. -/
theorem readBack_check {r : Report} (hfits : r.Fits) (read : String → Option Json) :
    (∀ write : Json → String, read (write r.toJson) = some r.toJson →
      (read (write r.toJson)).bind Report.ofJson? = some r) ∧
    ∀ w source path filter exclusions config,
      Finds w source path filter exclusions config r →
      read (r.toJson.pretty ++ "\n") = some r.toJson →
      let outcome := check w source path .json filter exclusions
      ∃ parsed, (read outcome.output).bind Report.ofJson? = some parsed ∧ parsed = r ∧
        outcome.status = (if parsed.reaches config.threshold then 1 else 0) ∧
        (∀ threshold, parsed.reaches threshold = r.reaches threshold) ∧
        (∀ severity, parsed.count severity = r.count severity) ∧
        parsed.sorted = r.sorted ∧
        ∀ threshold, parsed.failureText threshold = r.failureText threshold := by
  have hdecode : Report.ofJson? r.toJson = some r := Report.ofJson?_toJson hfits
  constructor
  · intro write hwritten
    rw [hwritten]
    exact hdecode
  · intro w source path filter exclusions config hfinds hprinted outcome
    obtain ⟨source?, houtcome⟩ := check_of_finds hfinds .json
    have hread : (read outcome.output).bind Report.ofJson? = some r := by
      have houtput : outcome.output = r.toJson.pretty ++ "\n" := congrArg Outcome.output houtcome
      rw [houtput, hprinted]
      exact hdecode
    have hstatus : outcome.status = if r.reaches config.threshold then 1 else 0 :=
      congrArg Outcome.status houtcome
    exact ⟨r, hread, rfl, hstatus, fun _ => rfl, fun _ => rfl, rfl, fun _ => rfl⟩

/-- A report of two violations, of which one has a reason and the other a suggestion and labels, and what
a run finds in a function that returns no value. -/
theorem readBack_check_labelled :
    ∃ (mixed found : Report) (w : Workspace) (read₁ read₂ : String → Option Json),
      mixed.violations.map (fun v => (v.reason.isSome, v.suggestion.isSome, v.labels.length)) =
        [(true, false, 0), (false, true, 2)] ∧
      (read₁ mixed.toJson.pretty).bind Report.ofJson? = some mixed ∧
      found.violations.map (fun v => (v.qualifiedCode, v.labels.length)) =
        [("PS002.InvalidReturnNotVoid", 1)] ∧
      (read₂ (check w .absent (.ofString ".") .json none []).output).bind Report.ofJson? =
        some found := by
  -- A parser is needed on one text only, so it may fail on all others.
  let parser (text : String) (v : Json) : String → Option Json := fun t =>
    if t = text then some v else none
  let place (line : Nat) : Location := ⟨.ofString "src/a \"b\".php", line, 1, 6 * line, 3⟩
  let mixed : Report :=
    { violations :=
        [⟨"PS001", "strict-declaration", some "MissingDeclaration", .error, place 1, "missing", none, []⟩,
          ⟨"X", "own", none, .info, place 2, "", some "try \\ this",
            [⟨place 3, "here"⟩, ⟨place 4, "there"⟩]⟩]
      filesChecked := 7 }
  let source : Text := ("<?php\ndeclare(strict_types=1);\nclass A\n\x7b\n    /** @return int */\n" ++
    "    function f() \x7b return; \x7d\n\x7d\n").toList
  let tree : FileTree :=
    .directory [("p".toList, .directory [("a.php".toList, .file (Utf8.encode source))])]
  let w : Workspace := { tree, current := .ofString "/p" }
  let a : Analyzer :=
    { root := .ofString "/p/."
      rules := .ofConfig (chosenSniffs {} none) {}
      exclusions := ["vendor", "node_modules"].map fun name => Exclusion.everyDirectory name.toList
      settings := ({} : Config).analyzer
      strict := false }
  let files : List SourceFile := [⟨.ofString "/p/./a.php", Utf8.encode source⟩]
  let found : Report := Analyzer.check a.rules (a.base tree) (ReadFile.readable files)
  have hbuild : Analyzer.build w.current (some (.ofString ".")) (chosenSniffs {} none) [] {} false =
      .ok a := Analyzer.build_eq_ok_iff.2 ⟨a.exclusions, by decide +kernel, rfl⟩
  have hvisible : Discovery.visibleFiles a.settings.respectGitignore tree a.root = .ok files := by
    decide +kernel
  have hfiles : a.files tree = .ok files :=
    Analyzer.files_of_visibleFiles hvisible (by decide +kernel) (List.pairwise_singleton _ _)
  have hfinds : Finds w .absent (.ofString ".") none [] {} found :=
    ⟨rfl, a, hbuild, Analyzer.run_lenient hfiles⟩
  have hmixed : mixed.Fits := by decide +kernel
  have hfound : found.Fits := by decide +kernel
  have hprinted := (readBack_check hfound (parser (found.toJson.pretty ++ "\n") found.toJson)).2 w
    .absent (.ofString ".") none [] {} hfinds (if_pos rfl)
  obtain ⟨parsed, hparsed, rfl, -⟩ := hprinted
  exact ⟨mixed, found, w, parser mixed.toJson.pretty mixed.toJson, _, by decide +kernel,
    (readBack_check hmixed _).1 Json.pretty (if_pos rfl), by decide +kernel, hparsed⟩

end CommandLine

end PhpLint

import PhpLint.Json
import PhpLint.Report

/-!
# Reports in JSON

A report is written as an object and read back from it.  A violation without a reason has no entry
for it; one without a suggestion has a null there.  `toJson` and `ofJson?` of each type stand beside
each other.
-/

namespace PhpLint

namespace Severity

/-- The severity as a word. -/
def toJson (s : Severity) : Json := .string s.name

/-- The severity that a value names. -/
def ofJson? (v : Json) : Option Severity := v.asWord?.bind ofName?

end Severity

namespace Location

/-- The place as an object. -/
def toJson (l : Location) : Json :=
  .object
    [("file", .string l.file.toString), ("line", .integer l.line), ("column", .integer l.column),
     ("offset", .integer l.offset), ("length", .integer l.length)]

/-- The place that a value writes. -/
def ofJson? (v : Json) : Option Location := do
  let fields ← v.fields? ["file", "line", "column", "offset", "length"]
  let file ← Json.required fields "file" Json.asString?
  let line ← Json.required fields "line" Json.asNat?
  let column ← Json.required fields "column" Json.asNat?
  let offset ← Json.required fields "offset" Json.asNat?
  let length ← Json.required fields "length" Json.asNat?
  some ⟨.ofString file, line, column, offset, length⟩

end Location

namespace Label

/-- The label as an object. -/
def toJson (l : Label) : Json :=
  .object [("location", l.location.toJson), ("message", .string l.message)]

/-- The label that a value writes. -/
def ofJson? (v : Json) : Option Label := do
  let fields ← v.fields? ["location", "message"]
  let location ← Json.required fields "location" Location.ofJson?
  let message ← Json.required fields "message" Json.asString?
  some ⟨location, message⟩

end Label

namespace Violation

/-- A suggestion as an object. -/
def suggestionToJson (message : String) : Json := .object [("message", .string message)]

/-- The suggestion that a value writes. -/
def suggestionOfJson? (v : Json) : Option String := do
  let fields ← v.fields? ["message"]
  Json.required fields "message" Json.asString?

/-- The names of a violation's fields, in order. -/
def fieldNames : List String :=
  ["code", "rule", "reason", "severity", "location", "message", "suggestion", "labels"]

/-- The violation as an object. -/
def toJson (v : Violation) : Json :=
  .object <|
    [("code", .string v.code), ("rule", .string v.rule)] ++
    (v.reason.map fun reason => ("reason", Json.string reason)).toList ++
    [("severity", v.severity.toJson), ("location", v.location.toJson),
     ("message", .string v.message), ("suggestion", Json.ofOption suggestionToJson v.suggestion),
     ("labels", .array (v.labels.map Label.toJson))]

/-- The violation that a value writes. -/
def ofJson? (v : Json) : Option Violation := do
  let fields ← v.fields? fieldNames
  let code ← Json.required fields "code" Json.asString?
  let rule ← Json.required fields "rule" Json.asString?
  let reason ← Json.optional fields "reason" Json.asString?
  let severity ← Json.required fields "severity" Severity.ofJson?
  let location ← Json.required fields "location" Location.ofJson?
  let message ← Json.required fields "message" Json.asString?
  let suggestion ← Json.optional fields "suggestion" suggestionOfJson?
  let labels ← Json.required fields "labels" (Json.asList? Label.ofJson?)
  some { code, rule, reason, severity, location, message, suggestion, labels }

end Violation

namespace Report

/-- The report as an object. -/
def toJson (r : Report) : Json :=
  .object
    [("violations", .array (r.violations.map Violation.toJson)),
     ("files_checked", .integer r.filesChecked)]

/-- The report that a value writes. -/
def ofJson? (v : Json) : Option Report := do
  let fields ← v.fields? ["violations", "files_checked"]
  let violations ← Json.required fields "violations" (Json.asList? Violation.ofJson?)
  let filesChecked ← Json.required fields "files_checked" Json.asNat?
  some ⟨violations, filesChecked⟩

end Report

end PhpLint

import PhpLint.Diagnostic.Frame
import PhpLint.Json.Printer
import PhpLint.Report.Json

/-!
# Reports as they are shown

A report is shown in one of four formats: as paragraphs, as JSON, with one line for each violation,
or with excerpts of the source.  The paragraphs and the excerpts are followed by a summary, whose
colour tells the gravest severity.
-/

namespace PhpLint

/-- A way to show a report. -/
inductive OutputFormat
  | text | json | compact | pretty
  deriving DecidableEq, Repr

namespace OutputFormat

/-- All formats. -/
def all : List OutputFormat := [text, json, compact, pretty]

/-- The name of a format. -/
def name : OutputFormat → String
  | text => "text"
  | json => "json"
  | compact => "compact"
  | pretty => "pretty"

/-- The format of a name. -/
def ofName? (t : Text) : Option OutputFormat := all.find? fun f => f.name.toList == t

end OutputFormat

/-- A colour of a terminal. -/
inductive Colour
  | red | green | yellow | blue
  deriving DecidableEq, Repr

namespace Colour

/-- The number of the colour. -/
def code : Colour → Nat
  | red => 31
  | green => 32
  | yellow => 33
  | blue => 34

/-- A text in the colour. -/
def paint (c : Colour) (s : String) : String := s!"\x1b[{c.code}m{s}\x1b[0m"

end Colour

/-- The colour of a severity. -/
def Severity.colour : Severity → Colour
  | .error => .red
  | .warning => .yellow
  | .info => .blue

namespace Violation

/-- The violation as a paragraph with its severity in colour. -/
def colouredParagraph (v : Violation) : String :=
  s!"{v.qualifiedCode} {v.rule} at {v.place}\n" ++
    s!"  {v.severity.colour.paint v.severity.name}: {v.message}\n" ++ helpLine v.suggestion ++ "\n"

/-- The violation with excerpts of the source, or as a paragraph when there is none. -/
def illustrated (v : Violation) (source : Option Text) : String :=
  match source with
  | some t => String.ofList (v.diagnostic.render v.location.file t) ++ "\n"
  | none => v.paragraph ++ "\n"

end Violation

namespace Report

/-- The colour of the summary: green unless there are errors or warnings. -/
def colour (r : Report) : Colour :=
  if 0 < r.count .error then .red else if 0 < r.count .warning then .yellow else .green

/-- The line that sums the report up. -/
def summary (r : Report) : String := r.colour.paint ("Found " ++ r.totals) ++ "\n"

/-- The report in a format, where some files have a source to show. -/
def shown (r : Report) (format : OutputFormat) (source? : FilePath → Option Text) : String :=
  match format with
  | .text => String.join (r.violations.map Violation.colouredParagraph) ++ r.summary
  | .json => r.toJson.pretty ++ "\n"
  | .compact => String.join (r.violations.map fun v => v.line ++ "\n")
  | .pretty =>
    String.join (r.violations.map fun v => v.illustrated (source? v.location.file)) ++ r.summary

end Report

end PhpLint

import PhpLint.FilePath
import PhpLint.Severity
import PhpLint.Token

/-!
# Violations

A violation says which rule a file breaks, where, and how gravely.  Its **code** is short and fixed,
its **reason** tells the ways of breaking one rule apart, and labels point at further places that
have to do with it.
-/

namespace PhpLint

/-- A span of a file. -/
structure Location where
  file : FilePath
  line : Nat
  column : Nat
  /-- Where the span starts, in bytes. -/
  offset : Nat
  /-- How long the span is, in bytes. -/
  length : Nat
  deriving DecidableEq, Repr

namespace Location

/-- A place without extent. -/
def point (file : FilePath) (line column : Nat) : Location := ⟨file, line, column, 0, 0⟩

/-- The span of a token. -/
def ofToken (file : FilePath) (t : Token) : Location :=
  ⟨file, t.line, t.column, t.offset, Text.utf8Length t.content⟩

/-- The order of places in one file: by line, then by column. -/
def lineOrder (a b : Location) : Ordering :=
  (compare a.line b.line).then (compare a.column b.column)

/-- The order of places: by file, then by line and column. -/
def order (a b : Location) : Ordering := (a.file.order b.file).then (a.lineOrder b)

end Location

/-- A further place and what it has to do with a violation. -/
structure Label where
  location : Location
  message : String
  deriving DecidableEq, Repr

/-- A rule that a file breaks. -/
structure Violation where
  /-- The code of the check. -/
  code : String
  /-- The name of the check. -/
  rule : String
  /-- The way in which the rule is broken. -/
  reason : Option String
  severity : Severity
  location : Location
  message : String
  /-- How to mend it. -/
  suggestion : Option String
  labels : List Label
  deriving DecidableEq, Repr

namespace Violation

/-- The code, and the reason after a dot. -/
def qualifiedCode (v : Violation) : String :=
  match v.reason with
  | some reason => v.code ++ "." ++ reason
  | none => v.code

/-- The file, line and column with colons between them. -/
def place (v : Violation) : String :=
  s!"{v.location.file.toString}:{v.location.line}:{v.location.column}"

/-- The violation on one line. -/
def line (v : Violation) : String :=
  s!"{v.place}: {v.severity.name} [{v.qualifiedCode}] {v.message}"

/-- The lines for a suggestion. -/
def helpLine : Option String → String
  | some message => "  = help: " ++ message ++ "\n"
  | none => ""

/-- The line for a label. -/
def noteLine (l : Label) : String := s!"  = note: {l.message} (line {l.location.line})\n"

/-- The violation as a paragraph, its suggestion and its labels included. -/
def paragraph (v : Violation) : String :=
  s!"{v.qualifiedCode} {v.rule} at {v.place}\n" ++
    s!"  {v.severity.name}: {v.message}\n" ++
    helpLine v.suggestion ++ String.join (v.labels.map noteLine)

end Violation

end PhpLint

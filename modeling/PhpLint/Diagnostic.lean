import PhpLint.Violation

/-!
# Diagnostics

What is shown of a violation together with the source: a message, spans of the source with what is
said about them, and a hint.  The first span is that of the violation itself and bears the name of
the check.
-/

namespace PhpLint

/-- A span of the source and what is said about it. -/
structure SpanNote where
  text : String
  /-- Where the span starts, in bytes. -/
  offset : Nat
  /-- How long the span is, in bytes. -/
  length : Nat
  deriving DecidableEq, Repr

/-- What is shown of a violation together with the source. -/
structure Diagnostic where
  message : String
  help : Option String
  notes : List SpanNote
  deriving DecidableEq, Repr

namespace Violation

/-- The note at a place. -/
def noteAt (l : Location) (text : String) : SpanNote := ⟨text, l.offset, l.length⟩

/-- What is shown of the violation. -/
def diagnostic (v : Violation) : Diagnostic where
  message := s!"[{v.qualifiedCode}] {v.message}"
  help := v.suggestion
  notes := noteAt v.location v.rule :: v.labels.map fun l => noteAt l.location l.message

end Violation

end PhpLint

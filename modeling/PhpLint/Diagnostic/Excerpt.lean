import PhpLint.Text

/-!
# Excerpts of a source

The lines around a span, with their numbers.  Here a carriage return alone ends a line too, when the
lines around the span are counted; in an excerpt it is a character like others.  All positions are
in bytes.
-/

namespace PhpLint

/-- Where a line ends: the first and the last byte of what ends it. -/
structure LineEnd where
  first : Nat
  last : Nat
  deriving DecidableEq, Repr

namespace LineEnd

/-- The line ends of a text that starts at an offset. -/
def all (offset : Nat) : Text → List LineEnd
  | [] => []
  | '\r' :: '\n' :: rest => ⟨offset, offset + 1⟩ :: all (offset + 2) rest
  | c :: rest =>
    if c = '\n' ∨ c = '\r' then ⟨offset, offset⟩ :: all (offset + 1) rest
    else all (offset + c.utf8Size) rest

end LineEnd

/-- A part of a source, in bytes. -/
structure Span where
  offset : Nat
  length : Nat
  deriving DecidableEq, Repr

namespace Span

/-- The offset past the span. -/
def stop (s : Span) : Nat := s.offset + s.length

/-- The line ends before the span. -/
def endsBefore (s : Span) (source : Text) : List LineEnd :=
  (LineEnd.all 0 source).filter (·.last < s.offset)

/-- The line ends after the last byte of the span. -/
def endsAfter (s : Span) (source : Text) : List LineEnd :=
  (LineEnd.all 0 source).filter (s.stop - 1 < ·.first)

/-- The number of the line on which the span starts, counted from one. -/
def line (s : Span) (source : Text) : Nat := (s.endsBefore source).length + 1

/-- The column at which the span starts, in bytes and counted from one. -/
def column (s : Span) (source : Text) : Nat :=
  match (s.endsBefore source).getLast? with
  | some e => s.offset - (e.last + 1) + 1
  | none => s.offset + 1

end Span

/-- A line of an excerpt. -/
structure ExcerptLine where
  number : Nat
  /-- Where it starts. -/
  offset : Nat
  /-- How long it is, what ends it included. -/
  length : Nat
  text : Text
  deriving DecidableEq, Repr

namespace ExcerptLine

/-- The offset past the line. -/
def stop (l : ExcerptLine) : Nat := l.offset + l.length

/-- The span lies on the line. -/
def holds (l : ExcerptLine) (s : Span) : Bool := l.offset ≤ s.offset && s.stop ≤ l.stop

/-- The span starts on the line. -/
def startsHere (l : ExcerptLine) (s : Span) : Bool := l.offset ≤ s.offset && s.offset < l.stop

/-- The lines of a text that starts at an offset, where the first one has a number.  A line that is
ended by a carriage return alone, at the end of the text, is not counted. -/
def ofPieces (number offset : Nat) : List Text → List ExcerptLine
  | [] => []
  | [t] =>
    if t.isEmpty then []
    else
      let number := if t.getLast? = some '\r' then number - 1 else number
      [⟨number, offset, Text.utf8Length t, t⟩]
  | t :: ts =>
    let length := Text.utf8Length t + 1
    ⟨number, offset, length, Text.dropReturn t⟩ :: ofPieces (number + 1) (offset + length) ts

end ExcerptLine

/-- Some lines of a source. -/
structure Excerpt where
  /-- The number of lines before it. -/
  before : Nat
  /-- The number of line ends up to its end. -/
  ends : Nat
  lines : List ExcerptLine

/-- The text without its first bytes, as far as they make up whole characters. -/
def Text.dropBytes : (n : Nat) → Text → Text
  | 0, t => t
  | _, [] => []
  | n, c :: rest => if c.utf8Size ≤ n then dropBytes (n - c.utf8Size) rest else c :: rest

/-- The first bytes of the text, as far as they make up whole characters. -/
def Text.takeBytes : (n : Nat) → Text → Text
  | 0, _ => []
  | _, [] => []
  | n, c :: rest => if c.utf8Size ≤ n then c :: takeBytes (n - c.utf8Size) rest else []

namespace Excerpt

/-- The lines of a span, and so many around it.  A span that ends with a line end counts that line's
end as its own, so one more line follows. -/
def around (source : Text) (context : Nat) (s : Span) : Excerpt :=
  let endsBefore := s.endsBefore source
  let before := endsBefore.length - context
  let start := if before = 0 then 0 else ((endsBefore[before - 1]?).map (·.last + 1)).getD 0
  let stop := ((s.endsAfter source)[context]?).map (·.last + 1)
  let rest := Text.dropBytes start source
  let shown := match stop with
    | some n => Text.takeBytes (n - start) rest
    | none => rest
  { before
    ends := (LineEnd.all 0 source).countP fun e => stop.all (e.last < ·)
    lines := ExcerptLine.ofPieces (before + 1) start (Text.splitOn '\n' shown) }

end Excerpt

end PhpLint

import PhpLint.Diagnostic
import PhpLint.Diagnostic.Excerpt
import PhpLint.FilePath
import PhpLint.Text.Wrap

/-!
# Diagnostics in a frame

A diagnostic is shown as its message, then frames with excerpts of the source, then its hint.  Below
a line of an excerpt the spans on it are underlined, and every note hangs from the middle of its
underline, the last one on the uppermost line.  Spans whose excerpts meet share a frame, which is
headed by the place of the first span in it.

Every span lies on one line of the source, as the tokens do that violations point at.
-/

namespace PhpLint

namespace Frame

/-- The number of columns of a page. -/
def pageWidth : Nat := 80

/-- The number of lines shown before and after a span. -/
def contextLines : Nat := 1

/-- Tabs end at multiples of this many columns. -/
def tabWidth : Nat := 4

/-- A character as it is shown at a column, and the column after it.  Of an escape sequence, which
goes up to the letter `m`, nothing takes any width. -/
def columnAfter (column : Nat) (escaped : Bool) (c : Char) : Nat × Bool :=
  if escaped then (column, c != 'm')
  else if c = '\t' then (column + (tabWidth - column % tabWidth), false)
  else if c.toNat = 0x1B then (column, true)
  else (column + Unicode.width c, false)

/-- A text from a column on as it is shown, its tabs as blanks, and the column after it. -/
def shownFrom (column : Nat) (escaped : Bool) : Text → Text × Nat
  | [] => ([], column)
  | c :: rest =>
    let (next, escaped') := columnAfter column escaped c
    let shown := if c = '\t' then List.replicate (next - column) ' ' else [c]
    let (more, last) := shownFrom next escaped' rest
    (shown ++ more, last)

/-- A line of text as it is shown. -/
def shown (t : Text) : Text := (shownFrom 0 false t).1

/-- The number of columns that a line of text takes. -/
def columns (t : Text) : Nat := (shownFrom 0 false t).2

/-- The column at an offset on a line.  All that ends a line takes one column. -/
def columnAt (l : ExcerptLine) (offset : Nat) : Nat :=
  let n := offset - l.offset
  columns (Text.takeBytes n l.text) + if Text.utf8Length l.text < n then 1 else 0

/-- The span of a note. -/
def spanOf (n : SpanNote) : Span := ⟨n.offset, n.length⟩

/-- Where a note is drawn: the first column of its underline, the one after it, and the one from
which the note hangs. -/
structure Mark where
  note : SpanNote
  start : Nat
  stop : Nat
  deriving DecidableEq, Repr

namespace Mark

/-- The column from which the note hangs. -/
def stem (m : Mark) : Nat := (m.start + m.stop) / 2

/-- The underline of a mark. -/
def underline (m : Mark) : Text :=
  List.replicate (m.stem - m.start) '─' ++ (if m.note.length = 0 then '▲' else '┬') ::
    List.replicate (m.stop - m.stem - 1) '─'

end Mark

/-- The marks of notes on a line, none of which starts before a column. -/
def marksFrom (l : ExcerptLine) (free : Nat) : List SpanNote → List Mark
  | [] => []
  | n :: ns =>
    let start := max free (columnAt l n.offset)
    let stop :=
      if n.length = 0 then start + 1 else max (start + 1) (columnAt l (n.offset + n.length))
    ⟨n, start, stop⟩ :: marksFrom l (max free stop) ns

/-- The underlines of marks from a column on. -/
def underlinesFrom (column : Nat) : List Mark → Text
  | [] => []
  | m :: ms =>
    List.replicate (m.start - column) ' ' ++ m.underline ++ underlinesFrom (max column m.stop) ms

/-- The line of one note, from a column on; notes before it go on downwards. -/
def noteLineFrom (column : Nat) (note : SpanNote) : List Mark → Text
  | [] => []
  | m :: ms =>
    List.replicate (m.stem - column) ' ' ++
      if m.note = note then "╰── ".toList ++ note.text.toList
      else '│' :: noteLineFrom (max column m.stem + 1) note ms

/-- A line behind a number or something in its place. -/
def gutter (width : Nat) (number : Text) (bar : Char) (t : Text) : Text :=
  ' ' :: List.replicate (width - number.length) ' ' ++ number ++ ' ' :: bar :: ' ' :: t

/-- The lines for a line of an excerpt: itself, the underlines and the notes. -/
def lineWithNotes (width : Nat) (notes : List SpanNote) (l : ExcerptLine) : List Text :=
  let here := notes.filter fun n => l.startsHere (spanOf n) && l.holds (spanOf n)
  let marks := marksFrom l 0 here
  let below :=
    if here.isEmpty then []
    else underlinesFrom 0 marks :: here.reverse.map (noteLineFrom 0 · marks)
  gutter width (toString l.number).toList '│' (shown l.text) :: below.map (gutter width [] '·')

/-- The lines of the frame around a span. -/
def lines (name : Text) (source : Text) (notes : List SpanNote) (s : Span) : List Text :=
  let excerpt := Excerpt.around source contextLines s
  let width := (toString ((excerpt.lines.getLast?.map (·.number)).getD 0)).length
  let inside (n : SpanNote) : Bool := s.offset ≤ n.offset && n.offset + n.length ≤ s.stop
  let head := ((notes.find? inside).map spanOf).getD s
  let place := name ++ s!":{head.line source}:{head.column source}".toList
  let margin := List.replicate (width + 2) ' '
  (margin ++ "╭─[".toList ++ place ++ [']']) ::
    excerpt.lines.flatMap (lineWithNotes width notes) ++ [margin ++ "╰────".toList]

/-- The spans of frames, of which the last one takes in one more span if their excerpts meet. -/
def addSpan (source : Text) (frames : List Span) (s : Span) : List Span :=
  match frames with
  | [] => [s]
  | last :: earlier =>
    let left := Excerpt.around source contextLines last
    let right := Excerpt.around source contextLines s
    if right.before ≤ left.before + left.ends then
      ⟨last.offset, max last.stop s.stop - last.offset⟩ :: earlier
    else s :: frames

/-- The spans of the frames for some notes, in order. -/
def spans (source : Text) (notes : List SpanNote) : List Span :=
  (notes.foldl (fun frames n => addSpan source frames (spanOf n)) []).reverse

end Frame

namespace Diagnostic

/-- The lines that show the diagnostic of a file with its source. -/
def lines (d : Diagnostic) (file : FilePath) (source : Text) : List Text :=
  let notes := d.notes.mergeSort fun a b => a.offset ≤ b.offset
  let width := Frame.pageWidth - 2
  let title := Text.wrapIndented width "  × ".toList "  │ ".toList d.message.toList
  let frames := (Frame.spans source notes).flatMap (Frame.lines file.text source notes)
  let help := match d.help with
    | some message =>
      Text.wrapIndented width "  help: ".toList (List.replicate 8 ' ') message.toList
    | none => []
  title ++ frames ++ help

/-- The diagnostic of a file with its source. -/
def render (d : Diagnostic) (file : FilePath) (source : Text) : Text :=
  (d.lines file source).flatMap (· ++ ['\n'])

end Diagnostic

end PhpLint

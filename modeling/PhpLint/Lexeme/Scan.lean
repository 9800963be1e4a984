import PhpLint.Lexeme.Comment
import PhpLint.Lexeme.Literal
import PhpLint.Lexeme.Number
import PhpLint.Lexeme.Operator
import PhpLint.Lexeme.Word

/-!
# Scanning a source

A source is text outside of PHP code and, between tags, the code.  The scanner reads one construct
after another.  It looks at the first character and what follows, and answers **how many more**
characters belong to the construct: every lexeme has a first character by its shape, so each step
takes something, and the scan ends.

The scan of a source is the lexemes read and the fault that stopped it, if there is one.  Without a
fault the lexemes spell the source; with one they spell what stands before the open construct.
-/

namespace PhpLint

/-- What the scanner finds at the front of PHP code. -/
inductive Reading
  /-- A lexeme: the first character and `more` characters after it. -/
  | one (kind : Kind) (more : Nat)
  /-- A doc comment around its body. -/
  | docComment (body : Text)
  | fault (fault : Fault)

/-- Outside of PHP code, or in it. -/
inductive Mode
  | html | code

/-- The lexemes of a source up to its end or to a fault. -/
structure Scan where
  lexemes : List Lexeme
  fault : Option Fault

namespace Scan

/-- Lexemes in front of a scan. -/
def after (ls : List Lexeme) (s : Scan) : Scan := ⟨ls ++ s.lexemes, s.fault⟩

/-- The length of the open tag at the front of a text, if one stands there. -/
def openTagLength? (t : Text) : Option Nat :=
  if Text.startsWith ['<', '?', '='] t then some 3
  else if Text.foldCase (t.take 5) = "<?php".toList then
    match t.drop 5 with
    | '\r' :: '\n' :: _ => some 7
    | c :: _ => some (if isBlank c || c == '\n' then 6 else 5)
    | [] => some 5
  else none

/-- The number of characters before the next open tag. -/
def untilOpenTag : Text → Nat
  | [] => 0
  | c :: rest => if (openTagLength? (c :: rest)).isSome then 0 else untilOpenTag rest + 1

/-- How many characters of white space follow the first: the gap, and the line feed that ends it. -/
def whitespaceTail (c : Char) (rest : Text) : Nat :=
  if c = '\n' then 0
  else
    let gap := (rest.takeWhile isGap).length
    if (rest.drop gap).head? = some '\n' then gap + 1 else gap

/-- A quote that starts a string: single, double or backtick. -/
def isQuote (c : Char) : Bool := c == '\'' || c == '"' || c.toNat == 0x60

/-- What stands at the front of PHP code, given the last token before it that carries code. -/
def read (previous : Option Kind) (c : Char) (rest : Text) : Reading :=
  let next (p : Char → Bool) := rest.head?.any p
  let lexeme (r : Kind × Nat) := Reading.one r.1 r.2
  if isGap c || c == '\n' then .one .whitespace (whitespaceTail c rest)
  else if c == '?' && next (· == '>') then
    .one .closeTag (if (rest.drop 1).head? = some '\n' then 2 else 1)
  else if c == '#' && next (· == '[') then .one .operator 1
  else if c == '#' || c == '/' && next (· == '/') then
    .one .comment (Comment.lineTail rest).length
  else if c == '/' && next (· == '*') then
    if Comment.opensDoc rest then
      match Comment.untilClose (rest.drop 2) with
      | some body => .docComment body
      | none => .fault .unterminatedComment
    else
      match Comment.untilClose (rest.drop 1) with
      | some body => .one .comment (body.length + 3)
      | none => .fault .unterminatedComment
  else if c == '$' && next isNameStart then .one .variableName (rest.takeWhile isNameChar).length
  else if isNameStart c then lexeme (Word.read previous c rest)
  else if c.isDigit || c == '.' && next Char.isDigit then
    let (kind, length) := Number.read (c :: rest)
    .one kind (length - 1)
  else if isQuote c then
    match Literal.quotedTail? c rest with
    | some more => .one .quoted more
    | none => .fault .unterminatedString
  else match (if c == '<' then Literal.heredoc? rest else none) with
    | some (.ok more) => .one .heredoc more
    | some (.error fault) => .fault fault
    | none => lexeme (Operator.read c rest)

/-- The last kind that carries code once a lexeme of kind `k` is read. -/
def previousAfter (previous : Option Kind) (k : Kind) : Option Kind :=
  if k.isTrivia then previous else some k

/-- The scan of a text in a mode, given the last token before it that carries code. -/
def ofText (mode : Mode) (previous : Option Kind) : Text → Scan
  | [] => ⟨[], none⟩
  | c :: rest =>
    match mode with
    | .html =>
      match openTagLength? (c :: rest) with
      | some length =>
        (ofText .code (some .openTag) (rest.drop (length - 1))).after
          [⟨.openTag, c :: rest.take (length - 1)⟩]
      | none =>
        (ofText .html (some .inlineHtml) (rest.drop (untilOpenTag rest))).after
          [⟨.inlineHtml, c :: rest.take (untilOpenTag rest)⟩]
    | .code =>
      match read previous c rest with
      | .one kind more =>
        (ofText (if kind = .closeTag then .html else .code) (previousAfter previous kind)
            (rest.drop more)).after [⟨kind, c :: rest.take more⟩]
      | .docComment body =>
        (ofText .code previous (rest.drop (body.length + 4))).after (Comment.doc body)
      | .fault fault => ⟨[], some fault⟩
termination_by t => t.length
decreasing_by all_goals (simp only [List.length_cons, List.length_drop]; omega)

/-- The scan of a whole source. -/
def ofSource (source : Text) : Scan := ofText .html none source

end Scan

end PhpLint

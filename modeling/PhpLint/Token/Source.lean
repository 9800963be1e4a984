import PhpLint.Lexeme.Scan
import PhpLint.Position
import PhpLint.Token

/-!
# The tokens of a source

The tokens are the scanned lexemes with their positions, which follow from the texts before them.
A byte order mark in front of a source is skipped: it takes bytes but no column.

A source that ends inside a construct has no tokens but an error, placed where the construct starts.
-/

namespace PhpLint

/-- The first construct that the source ends in, and where it starts. -/
structure LexError where
  fault : Fault
  line : Nat
  column : Nat
  deriving DecidableEq, Repr

/-- What is wrong, in words. -/
def Fault.describe : Fault → String
  | .unterminatedString => "unterminated string"
  | .unterminatedComment => "unterminated comment"
  | .unterminatedHeredoc => "unterminated heredoc"

/-- What is wrong and where. -/
def LexError.message (e : LexError) : String :=
  s!"{e.fault.describe} at line {e.line}, column {e.column}"

namespace Token

/-- The byte order mark. -/
def byteOrderMark : Char := Char.ofNat 0xFEFF

/-- The position at which a source's own text starts, and that text. -/
def skipMark (source : Text) : Position × Text :=
  match source with
  | c :: rest =>
    if c = byteOrderMark then ({ Position.start with offset := c.utf8Size }, rest)
    else (.start, source)
  | [] => (.start, [])

/-- Lexemes in a row, the first one placed at `p`. -/
def place (p : Position) : List Lexeme → List Token
  | [] => []
  | l :: ls => ⟨l.kind, l.text, p.line, p.column, p.offset⟩ :: place (p.past l.text) ls

/-- The tokens of a source, or the construct that it leaves open. -/
def ofSource (source : Text) : Except LexError (List Token) :=
  let (start, text) := skipMark source
  let scan := Scan.ofSource text
  match scan.fault with
  | none => .ok (place start scan.lexemes)
  | some fault =>
    let p := start.past (Lexeme.spell scan.lexemes)
    .error ⟨fault, p.line, p.column⟩

end Token

end PhpLint

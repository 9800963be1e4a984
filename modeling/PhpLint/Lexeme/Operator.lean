import PhpLint.Lexeme

/-!
# Operators and signs

The operators of several characters, longest first, so that the first one that fits is the longest
one that does; then the single signs.
-/

namespace PhpLint.Operator

/-- Operators of several characters with a kind of their own, or the common one. -/
def longer : List (Text × Kind) :=
  [("===".toList, .comparison .identical), ("!==".toList, .comparison .notIdentical),
   ("<=>".toList, .operator), ("**=".toList, .operator), ("...".toList, .operator),
   ("<<=".toList, .operator), (">>=".toList, .operator), ("??=".toList, .operator),
   ("?->".toList, .arrow), ("==".toList, .comparison .equal), ("!=".toList, .comparison .notEqual),
   ("<>".toList, .comparison .notEqual), ("<=".toList, .comparison .lessOrEqual),
   (">=".toList, .comparison .greaterOrEqual), ("&&".toList, .operator), ("||".toList, .operator),
   ("++".toList, .operator), ("--".toList, .operator), ("+=".toList, .operator),
   ("-=".toList, .operator), ("*=".toList, .operator), ("/=".toList, .operator),
   (".=".toList, .operator), ("%=".toList, .operator), ("&=".toList, .operator),
   ("|=".toList, .operator), ("^=".toList, .operator), ("->".toList, .arrow),
   ("=>".toList, .doubleArrow), ("::".toList, .doubleColon), ("<<".toList, .operator),
   (">>".toList, .operator), ("??".toList, .operator), ("**".toList, .operator)]

/-- The kind of a single sign. -/
def single (c : Char) : Kind :=
  match c with
  | '(' => .opens .round
  | ')' => .closes .round
  | '{' => .opens .curly
  | '}' => .closes .curly
  | '[' => .opens .square
  | ']' => .closes .square
  | ';' => .semicolon
  | ',' => .comma
  | '=' => .assign
  | '<' => .comparison .less
  | '>' => .comparison .greater
  | '\\' => .backslash
  | _ => .operator

/-- The kind of the operator at the front of a text, and how many characters follow its first. -/
def read (c : Char) (rest : Text) : Kind × Nat :=
  match longer.find? fun entry => Text.startsWith entry.1 (c :: rest) with
  | some (spelling, kind) => (kind, spelling.length - 1)
  | none => (single c, 0)

end PhpLint.Operator

import PhpLint.Token.Kind

/-!
# Tokens

A token is a piece of source text with its kind and the place where it starts.  Places count lines
and columns from one, columns in code points; offsets count bytes from zero.
-/

namespace PhpLint

/-- A piece of source text, what it is, and where it starts. -/
structure Token where
  kind : Kind
  content : Text
  line : Nat
  column : Nat
  offset : Nat
  deriving DecidableEq, Repr

namespace Token

/-- The width in code points. -/
def length (t : Token) : Nat := t.content.length

/-- The column at which a neighbour would start. -/
def endColumn (t : Token) : Nat := t.column + t.length

end Token

end PhpLint

import PhpLint.Token.Kind

/-!
# Lexemes

A **lexeme** is a piece of source text with its kind.  It has no position: where it stands follows
from the lexemes before it, so the reading of a source never counts lines.

The text of a run of lexemes is the texts in a row, `Lexeme.spell`, and a reader of lexemes is
lossless when spelling its answer gives the source back.
-/

namespace PhpLint

/-- A piece of source text and what it is. -/
structure Lexeme where
  kind : Kind
  text : Text
  deriving DecidableEq, Repr

/-- The source text of lexemes in a row. -/
def Lexeme.spell (ls : List Lexeme) : Text := ls.flatMap Lexeme.text

namespace Lexeme

@[simp] theorem spell_nil : spell [] = [] := rfl

@[simp] theorem spell_cons (l : Lexeme) (ls : List Lexeme) :
    spell (l :: ls) = l.text ++ spell ls := by
  simp [spell]

/-- Lists behind each other spell their texts behind each other. -/
@[simp] theorem spell_append (xs ys : List Lexeme) : spell (xs ++ ys) = spell xs ++ spell ys := by
  simp [spell]

end Lexeme

/-- A character that may start a name: an ASCII letter, an underscore, or anything beyond ASCII. -/
def isNameStart (c : Char) : Bool := c.isAlpha || c == '_' || 128 ≤ c.toNat

/-- A character that may go on a name. -/
def isNameChar (c : Char) : Bool := isNameStart c || c.isDigit

/-- A construct that the source ends before closing. -/
inductive Fault
  | unterminatedString | unterminatedComment | unterminatedHeredoc
  deriving DecidableEq, Repr

end PhpLint

import PhpLint.Lexeme

/-!
# Words

A word is a run of name characters.  Whether it is a keyword depends on what stands before it:
after `function`, an arrow or a name separator every word is a plain name, and after `::` every
word but `class`.  The word `yield` takes a following `from` with it.
-/

namespace PhpLint.Word

/-- After this kind of token a word is the name of a member, whatever its spelling. -/
def isMemberAfter (previous : Option Kind) (lower : Text) : Bool :=
  match previous with
  | some (.keyword .kwFunction) | some .arrow | some .backslash => true
  | some .doubleColon => lower != Keyword.kwClass.spelling
  | _ => false

/-- The kind of a word, given the last token before it that carries code. -/
def kind (previous : Option Kind) (word : Text) : Kind :=
  let lower := Text.foldCase word
  if isMemberAfter previous lower then .identifier
  else match Keyword.ofSpelling? lower with
    | some k => .keyword k
    | none => .identifier

/-- After `yield`: the length of white space and `from`, when `from` stands there as a word. -/
def fromLength? (after : Text) : Option Nat :=
  let gap := (after.takeWhile Unicode.isSpace).length
  let word := (after.drop gap).take 4
  let rest := after.drop (gap + 4)
  if gap ≠ 0 ∧ Text.foldCase word = "from".toList ∧ !(rest.head?.any isNameChar) then
    some (gap + 4)
  else none

/-- The kind of the word at the front of a text, and how many characters follow its first. -/
def read (previous : Option Kind) (c : Char) (rest : Text) : Kind × Nat :=
  let tail := rest.takeWhile isNameChar
  let plain := (kind previous (c :: tail), tail.length)
  if Text.foldCase (c :: tail) = Keyword.kwYield.spelling then
    match fromLength? (rest.drop tail.length) with
    | some length => (.yieldFrom, tail.length + length)
    | none => plain
  else plain

end PhpLint.Word

import PhpLint.Proofs.Unclosed.Reading

/-!
# The class of a kind

A check asks a token for its kind and trusts what is written in it.  The **class** of a kind is the set
of texts that it can trust: which characters stand in front, which may follow, how the text ends and what
does not occur in it.  `Kind.Admits` puts the classes together, and none of them speaks of the scanner.

A class is a property of the text alone.  What stands before a token may rule some of its texts out (a
keyword behind an arrow is a plain name), and what stands behind it often ends it, but neither is asked
for here.
-/

namespace PhpLint

/-! ## Tags and white space -/

namespace Scan

/-- What may belong to an open tag behind its word: one blank or one line end. -/
def tagEndings : List Text := [[], [' '], ['\t'], ['\n'], ['\r', '\n']]

/-- The open tag that echoes, or the word in letters of either case. -/
inductive IsOpenTag : Text → Prop
  | echo : IsOpenTag "<?=".toList
  | word {word ending : Text} (hword : Text.foldCase word = "<?php".toList)
      (hending : ending ∈ tagEndings) : IsOpenTag (word ++ ending)

/-- Blanks and carriage returns, and at most one line feed, which is the last character. -/
inductive IsWhitespace : Text → Prop
  | gap {gap : Text} (hne : gap ≠ []) (hgap : ∀ c ∈ gap, isGap c = true) : IsWhitespace gap
  | line {gap : Text} (hgap : ∀ c ∈ gap, isGap c = true) : IsWhitespace (gap ++ ['\n'])

end Scan

/-! ## Comments -/

namespace Comment

/-- Two slashes, or a hash that starts no attribute, and then neither a line feed nor a closing tag. -/
structure IsLine (t : Text) : Prop where
  front : "//".toList <+: t ∨ ['#'] <+: t ∧ ¬"#[".toList <+: t
  feed_notMem : '\n' ∉ t
  tag_not_isInfix : ¬"?>".toList <:+: t

/-- A slash and a star, a body, and the first star and slash behind them.  Two stars at the front that
white space follows would be a doc comment. -/
inductive IsBlock : Text → Prop
  | intro {body : Text} (hcloses : ClosesFirst body)
      (hplain : ∀ c, ['*', c] <+: body ++ ['*', '/'] → Unicode.isSpace c = false) :
      IsBlock ('/' :: '*' :: (body ++ ['*', '/']))

/-- A line end, or blanks and carriage returns. -/
def IsDocSpace (t : Text) : Prop :=
  t ∈ Literal.lineEnds ∨ t ≠ [] ∧ ∀ c ∈ t, isGap c = true

/-- An at sign and no white space behind it, and not the end of the comment. -/
inductive IsDocTag : Text → Prop
  | intro {name : Text} (hname : ∀ c ∈ name, Unicode.isSpace c = false)
      (hopen : ¬['*', '/'] <:+: '@' :: name) : IsDocTag ('@' :: name)

/-- Text on one line without blanks around it, and not the end of the comment. -/
structure IsDocText (t : Text) : Prop where
  ne_nil : t ≠ []
  line : ∀ c ∈ t, isLineChar c = true
  start : ∀ c ∈ t.head?, isBlank c = false
  stop : ∀ c ∈ t.getLast?, isBlank c = false
  close_not_isInfix : ¬['*', '/'] <:+: t

end Comment

/-! ## Words and numbers -/

/-- The two words with white space of any kind between them, line ends included. -/
inductive Word.IsYieldFrom : Text → Prop
  | intro {first gap second : Text} (hfirst : Text.foldCase first = "yield".toList) (hne : gap ≠ [])
      (hgap : ∀ c ∈ gap, Unicode.isSpace c = true) (hsecond : Text.foldCase second = "from".toList) :
      IsYieldFrom (first ++ (gap ++ second))

namespace Number

/-- A digit, and digits and underscores behind it. -/
structure IsDigits (t : Text) : Prop where
  start : startsWithDigit t = true
  run : ∀ c ∈ t, isDigitOrMark c = true

/-- Digits, or a zero, the letter of another base, and the digits of that base. -/
inductive IsInteger : Text → Prop
  | digits {t : Text} (h : IsDigits t) : IsInteger t
  | based {letter : Char} {digits : Text} (hletter : letter ∈ ['x', 'X', 'b', 'B'])
      (hdigits : ∀ c ∈ digits, isHexOrMark c = true) : IsInteger ('0' :: letter :: digits)

/-- A point and digits. -/
inductive IsFraction : Text → Prop
  | intro {digits : Text} (hdigits : IsDigits digits) : IsFraction ('.' :: digits)

/-- A letter, perhaps a sign, and digits. -/
inductive IsExponent : Text → Prop
  | intro {letter : Char} {sign digits : Text} (hletter : letter ∈ ['e', 'E'])
      (hsign : sign ∈ [[], ['+'], ['-']]) (hdigits : IsDigits digits) :
      IsExponent (letter :: (sign ++ digits))

/-- Digits with a fraction, an exponent or both.  In front of a fraction the digits may be missing. -/
inductive IsFloat : Text → Prop
  | fraction {whole fraction exponent : Text} (hwhole : whole = [] ∨ IsDigits whole)
      (hfraction : IsFraction fraction) (hexponent : exponent = [] ∨ IsExponent exponent) :
      IsFloat (whole ++ fraction ++ exponent)
  | exponent {whole exponent : Text} (hwhole : IsDigits whole) (hexponent : IsExponent exponent) :
      IsFloat (whole ++ exponent)

end Number

/-! ## String literals -/

namespace Literal

/-- No quote in the text counts: each stands behind a backslash that takes it. -/
def NoQuote (quote : Char) (body : Text) : Prop :=
  ∀ before after, body = before ++ quote :: after → ¬Escaped before

/-- The same quote at both ends, and none that counts between them. -/
inductive IsQuoted : Text → Prop
  | intro {quote : Char} {body : Text} (hquote : Scan.isQuote quote = true) (hescaped : Escaped body)
      (hopen : NoQuote quote body) : IsQuoted (quote :: (body ++ [quote]))

/-- Whole lines, none of which closes the heredoc. -/
structure IsBody (marker body : Text) : Prop where
  lines : StartsLine body
  opens : ∀ before line, body = before ++ line → line ≠ [] → StartsLine before →
    ¬ClosesHeredoc marker line

/-- A header, the lines of the body, and blanks and the marker on the line that closes it. -/
inductive IsHeredoc : Text → Prop
  | intro {marker header body blanks : Text} (hheader : IsHeader marker header)
      (hbody : IsBody marker body) (hblanks : ∀ c ∈ blanks, isBlank c = true) :
      IsHeredoc ("<<<".toList ++ (header ++ (body ++ (blanks ++ marker))))

end Literal

/-! ## Signs -/

namespace Operator

/-- The texts of a kind that has only a few. -/
def spellings : Kind → List Text
  | .closeTag => ["?>".toList, "?>\n".toList]
  | .docStar => [['*']]
  | .opens .round => [['(']]
  | .closes .round => [[')']]
  | .opens .curly => [['{']]
  | .closes .curly => [['}']]
  | .opens .square => [['[']]
  | .closes .square => [[']']]
  | .opens .docComment => ["/**".toList]
  | .closes .docComment => ["*/".toList]
  | .semicolon => [[';']]
  | .comma => [[',']]
  | .assign => [['=']]
  | .comparison .equal => ["==".toList]
  | .comparison .notEqual => ["!=".toList, "<>".toList]
  | .comparison .identical => ["===".toList]
  | .comparison .notIdentical => ["!==".toList]
  | .comparison .less => [['<']]
  | .comparison .greater => [['>']]
  | .comparison .lessOrEqual => ["<=".toList]
  | .comparison .greaterOrEqual => [">=".toList]
  | .doubleColon => ["::".toList]
  | .arrow => ["->".toList, "?->".toList]
  | .backslash => [['\\']]
  | .doubleArrow => ["=>".toList]
  | .operator =>
    ["#[".toList, "<=>".toList, "**=".toList, "...".toList, "<<=".toList, ">>=".toList,
     "??=".toList, "&&".toList, "||".toList, "++".toList, "--".toList, "+=".toList, "-=".toList,
     "*=".toList, "/=".toList, ".=".toList, "%=".toList, "&=".toList, "|=".toList, "^=".toList,
     "<<".toList, ">>".toList, "??".toList, "**".toList]
  | _ => []

/-- A character that starts nothing else: no white space, name, number, string or comment, and no sign
with a kind of its own. -/
structure IsSign (c : Char) : Prop where
  gap : isGap c = false
  feed : c ≠ '\n'
  name : isNameStart c = false
  digit : c.isDigit = false
  quote : Scan.isQuote c = false
  hash : c ≠ '#'
  single : Operator.single c = .operator

end Operator

/-! ## Kinds -/

/-- The class of a kind: the texts that a token of the kind may have. -/
def Kind.Admits (t : Text) : Kind → Prop
  | .openTag => Scan.IsOpenTag t
  | .inlineHtml => t ≠ []
  | .whitespace => Scan.IsWhitespace t
  | .comment => Comment.IsLine t ∨ Comment.IsBlock t
  | .docSpace => Comment.IsDocSpace t
  | .docTag => Comment.IsDocTag t
  | .docText => Comment.IsDocText t
  | .variableName => ∃ name, t = '$' :: name ∧ Literal.IsName name
  | .identifier => Literal.IsName t
  | .integer => Number.IsInteger t
  | .float => Number.IsFloat t
  | .quoted => Literal.IsQuoted t
  | .heredoc => Literal.IsHeredoc t
  | .keyword w => Literal.IsName t ∧ Keyword.ofSpelling? (Text.foldCase t) = some w
  | .yieldFrom => Word.IsYieldFrom t
  | .operator => t ∈ Operator.spellings .operator ∨ ∃ c, t = [c] ∧ Operator.IsSign c
  | k => t ∈ Operator.spellings k

/-- A kind with only a few texts admits each of them. -/
theorem Kind.admits_of_mem_spellings {t : Text} {k : Kind} (h : t ∈ Operator.spellings k) :
    k.Admits t := by
  cases k with
  | operator => exact .inl h
  | closeTag | docStar | semicolon | comma | assign | doubleColon | arrow | backslash
  | doubleArrow => exact h
  | opens d | closes d | comparison d => exact h
  | _ => cases h

end PhpLint

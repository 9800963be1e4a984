import PhpLint.Text

/-!
# Kinds of tokens

What a token is, apart from its text.  Words with a meaning of their own are **keywords**, the
brackets and the two ends of a doc comment are **delimiters** that come in pairs, and the eight
operators that compare two values are **comparisons**; the remaining kinds stand for themselves.

A keyword and a comparison have one spelling each (`<>` is a second spelling of `!=`), so reading a
word back from its spelling is a matter of searching the list of all of them.
-/

namespace PhpLint

/-- The reserved words that the checks tell apart. -/
inductive Keyword
  | kwDeclare | kwNamespace | kwUse | kwClass | kwInterface | kwTrait | kwExtends | kwImplements
  | kwFunction | kwFn | kwAbstract | kwFinal | kwStatic | kwPublic | kwProtected | kwPrivate
  | kwReadonly | kwReturn | kwYield | kwNew | kwArray | kwTrue | kwFalse | kwNull
  deriving DecidableEq, Repr

namespace Keyword

/-- All keywords. -/
def all : List Keyword :=
  [kwDeclare, kwNamespace, kwUse, kwClass, kwInterface, kwTrait, kwExtends, kwImplements,
   kwFunction, kwFn, kwAbstract, kwFinal, kwStatic, kwPublic, kwProtected, kwPrivate,
   kwReadonly, kwReturn, kwYield, kwNew, kwArray, kwTrue, kwFalse, kwNull]

/-- How the keyword is written, in lower case. -/
def spelling : Keyword → Text
  | kwDeclare => "declare".toList
  | kwNamespace => "namespace".toList
  | kwUse => "use".toList
  | kwClass => "class".toList
  | kwInterface => "interface".toList
  | kwTrait => "trait".toList
  | kwExtends => "extends".toList
  | kwImplements => "implements".toList
  | kwFunction => "function".toList
  | kwFn => "fn".toList
  | kwAbstract => "abstract".toList
  | kwFinal => "final".toList
  | kwStatic => "static".toList
  | kwPublic => "public".toList
  | kwProtected => "protected".toList
  | kwPrivate => "private".toList
  | kwReadonly => "readonly".toList
  | kwReturn => "return".toList
  | kwYield => "yield".toList
  | kwNew => "new".toList
  | kwArray => "array".toList
  | kwTrue => "true".toList
  | kwFalse => "false".toList
  | kwNull => "null".toList

/-- The keyword written as `word`, which is taken to be in lower case already. -/
def ofSpelling? (word : Text) : Option Keyword := all.find? (·.spelling == word)

/-- The keyword that is found for a word is spelled like it. -/
theorem spelling_of_ofSpelling? {word : Text} {k : Keyword} (h : ofSpelling? word = some k) :
    k.spelling = word := by
  simpa using List.find?_some h

/-- Visibility and the other words that may stand between a doc comment and `function`. -/
def isModifier : Keyword → Bool
  | kwPublic | kwProtected | kwPrivate | kwStatic | kwAbstract | kwFinal | kwReadonly => true
  | _ => false

end Keyword

/-- The operators that compare two values. -/
inductive Comparison
  | equal | notEqual | identical | notIdentical | less | greater | lessOrEqual | greaterOrEqual
  deriving DecidableEq, Repr

/-- All comparisons. -/
def Comparison.all : List Comparison :=
  [equal, notEqual, identical, notIdentical, less, greater, lessOrEqual, greaterOrEqual]

/-- What comes in pairs: three sorts of brackets, and the two ends of a doc comment. -/
inductive Delimiter
  | round | curly | square | docComment
  deriving DecidableEq, Repr

/-- What a token is, apart from its text. -/
inductive Kind
  /-- The start of PHP code, with one character of white space or a line end after it. -/
  | openTag
  /-- The end of PHP code, with a line feed after it. -/
  | closeTag
  /-- Text outside of PHP code. -/
  | inlineHtml
  /-- Blanks and carriage returns, up to and with a line feed. -/
  | whitespace
  /-- A comment that is no doc comment. -/
  | comment
  /-- A star at the start of a doc comment's line. -/
  | docStar
  /-- White space in a doc comment; a line end stands alone. -/
  | docSpace
  /-- A name after `@` at the start of a doc comment's line. -/
  | docTag
  /-- Any other text of a doc comment. -/
  | docText
  /-- A dollar sign and a name. -/
  | variableName
  /-- A name. -/
  | identifier
  /-- A whole number. -/
  | integer
  /-- A number with a fraction or an exponent. -/
  | float
  /-- A string in quotes or backticks. -/
  | quoted
  /-- A heredoc or nowdoc with its markers. -/
  | heredoc
  /-- A reserved word. -/
  | keyword (word : Keyword)
  /-- The two words `yield from`. -/
  | yieldFrom
  /-- An opening delimiter. -/
  | opens (delimiter : Delimiter)
  /-- A closing delimiter. -/
  | closes (delimiter : Delimiter)
  | semicolon
  | comma
  /-- The single equals sign. -/
  | assign
  | comparison (operator : Comparison)
  | doubleColon
  /-- Access to a member, null-safe or not. -/
  | arrow
  /-- The separator of a qualified name. -/
  | backslash
  | doubleArrow
  /-- Any other operator or sign. -/
  | operator
  deriving DecidableEq, Repr

namespace Kind

/-- Part of a doc comment. -/
def isDocComment : Kind → Bool
  | opens .docComment | closes .docComment | docStar | docSpace | docTag | docText => true
  | _ => false

/-- White space and comments, which carry no code. -/
def isTrivia : Kind → Bool
  | whitespace | comment => true
  | k => k.isDocComment

/-- Everything that carries code. -/
def isSignificant (k : Kind) : Bool := !k.isTrivia

/-- A modifier of a method. -/
def isModifier : Kind → Bool
  | keyword w => w.isModifier
  | _ => false

/-- One of the eight comparisons. -/
def isComparison : Kind → Bool
  | comparison _ => true
  | _ => false

/-- A class, interface or trait keyword. -/
def isTypeKeyword : Kind → Bool
  | keyword .kwClass | keyword .kwInterface | keyword .kwTrait => true
  | _ => false

/-- Content of a doc comment: a tag or text. -/
def isDocContent : Kind → Bool
  | docTag | docText => true
  | _ => false

end Kind

end PhpLint

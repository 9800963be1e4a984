import PhpLint.Toml.Reader

/-!
# TOML strings

A string is **basic**, in double quotes and with escapes, or **literal**, in single quotes and as
written; three quotes instead of one let it go on over several lines.  In a string of several lines
a line end counts as a line feed, the one right after the opening quotes not at all, and a backslash
at the end of a line takes all white space after it away.
-/

namespace PhpLint.Toml

open Reader

/-- The value of a hexadecimal digit. -/
def hexValue? (c : Char) : Option Nat :=
  if c.isDigit then some (c.toNat - '0'.toNat)
  else if 'a' ≤ c ∧ c ≤ 'f' then some (c.toNat - 'a'.toNat + 10)
  else if 'A' ≤ c ∧ c ≤ 'F' then some (c.toNat - 'A'.toNat + 10)
  else none

/-- A hexadecimal digit. -/
def hexDigit : Reader Nat := do
  let c ← anyChar
  hexValue? c

/-- A number of exactly `n` hexadecimal digits, read after the value `start`. -/
def hexNumber (start : Nat) : (n : Nat) → Reader Nat
  | 0 => return start
  | n + 1 => do hexNumber (start * 16 + (← hexDigit)) n

/-- A character given by its code point. -/
def codePoint (digits : Nat) : Reader Char := do
  let code ← hexNumber 0 digits
  if code.isValidChar then return Char.ofNat code else failure

/-- What stands after a backslash. -/
def escaped : Reader Char := do
  match ← anyChar with
  | 'b' => return Char.ofNat 8
  | 't' => return '\t'
  | 'n' => return '\n'
  | 'f' => return Char.ofNat 12
  | 'r' => return '\r'
  | '"' => return '"'
  | '\\' => return '\\'
  | 'u' => codePoint 4
  | 'U' => codePoint 8
  | _ => failure

/-- A character that stands for itself in a basic string. -/
def isBasicChar (c : Char) : Bool := isCommentChar c && c != '"' && c != '\\'

/-- A character of a literal string. -/
def isLiteralChar (c : Char) : Bool := isCommentChar c && c != '\''

/-- A character of a basic string, plain or escaped. -/
def basicChar : Reader Char := do
  let c ← anyChar
  if isBasicChar c then return c
  else if c = '\\' then escaped
  else failure

/-- A basic string on one line. -/
def basicString : Reader Text := do
  literal ['"']
  let text ← many basicChar
  literal ['"']
  return text

/-- A literal string on one line. -/
def literalString : Reader Text := do
  literal ['\'']
  let text ← run isLiteralChar
  literal ['\'']
  return text

/-- After a backslash: the end of the line and all white space that follows. -/
def lineContinuation : Reader Unit := do
  blanks
  newline
  let blank : Reader Unit := do let _ ← run1 isBlank
  let _ ← many (fun t => (blank t).or (newline t))

/-- One element of a basic string of several lines: its characters, if any. -/
def multilineBasicElement : Reader Text := do
  let plain : Reader Text := do return [← oneOf isBasicChar]
  let lineFeed : Reader Text := do newline; return ['\n']
  let continued : Reader Text := do literal ['\\']; lineContinuation; return []
  let character : Reader Text := do literal ['\\']; return [← escaped]
  fun t => ((plain t).or (lineFeed t)).or ((continued t).or (character t))

/-- One element of a literal string of several lines. -/
def multilineLiteralElement : Reader Text := do
  let plain : Reader Text := do return [← oneOf isLiteralChar]
  let lineFeed : Reader Text := do newline; return ['\n']
  fun t => (plain t).or (lineFeed t)

/-- The rest of a string of several lines.  One or two quotes may stand in it; of three or more the
last three close it, and at most two may stand before these. -/
def multilineRest (quote : Char) (element : Reader Text) : (fuel : Nat) → Reader Text
  | 0 => failure
  | fuel + 1 => do
    let quotes := (← run (· == quote))
    if quotes.length < 3 then
      let text ← element
      return quotes ++ text ++ (← multilineRest quote element fuel)
    else if quotes.length ≤ 5 then return quotes.drop 3
    else failure

/-- A string of several lines. -/
def multilineString (quote : Char) (element : Reader Text) : Reader Text := do
  literal [quote, quote, quote]
  let _ ← maybe newline
  fun t => multilineRest quote element (t.length + 1) t

/-- A string of any of the four forms. -/
def string : Reader Text := fun t =>
  ((multilineString '"' multilineBasicElement t).or
    (if Text.startsWith ['"', '"', '"'] t then none else basicString t)).or
  ((multilineString '\'' multilineLiteralElement t).or
    (if Text.startsWith ['\'', '\'', '\''] t then none else literalString t))

end PhpLint.Toml

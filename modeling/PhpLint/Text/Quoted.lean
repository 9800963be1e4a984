import PhpLint.Text
import PhpLint.Unicode.Printable

/-!
# Quoted texts

The form of a text in a listing for debugging: in double quotes, with escapes for quotes,
backslashes, the common control characters and whatever else does not show on a page.
-/

namespace PhpLint.Text

/-- The code point of a character in hexadecimal digits. -/
def hexCode (c : Char) : Text := Nat.toDigits 16 c.toNat

/-- A character inside of quotes. -/
def escape (c : Char) : Text :=
  match c with
  | '"' => ['\\', '"']
  | '\\' => ['\\', '\\']
  | '\n' => ['\\', 'n']
  | '\r' => ['\\', 'r']
  | '\t' => ['\\', 't']
  | c =>
    if c.toNat = 0 then ['\\', '0']
    else if Unicode.isPrintable c then [c]
    else ['\\', 'u', '{'] ++ hexCode c ++ ['}']

/-- The text in quotes. -/
def quoted (t : Text) : Text := '"' :: t.flatMap escape ++ ['"']

/-- Texts in quotes, listed in square brackets. -/
def quotedList (ts : List Text) : Text := '[' :: joinWith ", ".toList (ts.map quoted) ++ [']']

end PhpLint.Text

import PhpLint.Json
import PhpLint.Text

/-!
# Printing JSON

A value is printed over several lines: every element of an array and every entry of an object has
its own line, two blanks further in than what contains it.  Only empty ones stay on one line.
-/

namespace PhpLint.Json

/-- The hexadecimal digit of a small number. -/
def hexDigit (n : Nat) : Char := if n < 10 then Char.ofNat (48 + n) else Char.ofNat (87 + n)

/-- A character in a string: quotes, backslashes and control characters are escaped. -/
def escape (c : Char) : Text :=
  if c = '"' then ['\\', '"']
  else if c = '\\' then ['\\', '\\']
  else if c = '\n' then ['\\', 'n']
  else if c = '\r' then ['\\', 'r']
  else if c = '\t' then ['\\', 't']
  else if c.toNat = 8 then ['\\', 'b']
  else if c.toNat = 12 then ['\\', 'f']
  else if c.toNat < 32 then
    ['\\', 'u', '0', '0', hexDigit (c.toNat / 16), hexDigit (c.toNat % 16)]
  else [c]

/-- A string in quotes. -/
def quote (s : String) : Text := '"' :: s.toList.flatMap escape ++ ['"']

/-- The start of a line at a depth. -/
def newLine (depth : Nat) : Text := '\n' :: List.replicate (2 * depth) ' '

mutual

/-- A value at a depth. -/
def print (depth : Nat) : Json → Text
  | null => "null".toList
  | boolean true => "true".toList
  | boolean false => "false".toList
  | integer n => (toString n).toList
  | string s => quote s
  | array [] => ['[', ']']
  | array (v :: vs) =>
    '[' :: newLine (depth + 1) ++ print (depth + 1) v ++ printElements (depth + 1) vs ++
      newLine depth ++ [']']
  | object [] => ['{', '}']
  | object ((key, v) :: entries) =>
    '{' :: newLine (depth + 1) ++ quote key ++ ": ".toList ++ print (depth + 1) v ++
      printEntries (depth + 1) entries ++ newLine depth ++ ['}']

/-- The elements after the first one of an array. -/
def printElements (depth : Nat) : List Json → Text
  | [] => []
  | v :: vs => ',' :: newLine depth ++ print depth v ++ printElements depth vs

/-- The entries after the first one of an object. -/
def printEntries (depth : Nat) : List (String × Json) → Text
  | [] => []
  | (key, v) :: entries =>
    ',' :: newLine depth ++ quote key ++ ": ".toList ++ print depth v ++ printEntries depth entries

end

/-- The text of a value. -/
def pretty (v : Json) : String := String.ofList (print 0 v)

end PhpLint.Json

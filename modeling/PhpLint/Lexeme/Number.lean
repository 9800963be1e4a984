import PhpLint.Lexeme

/-!
# Numbers

A number starts with a digit, or with a point before a digit.  Zero and one of the letters `x` and
`b` start a run of hexadecimal digits.  Any other number is a run of digits, a fraction if a digit
follows the point, and an exponent if a digit follows its letter and sign; underscores may stand
among the digits.
-/

namespace PhpLint.Number

/-- A digit, or an underscore among digits. -/
def isDigitOrMark (c : Char) : Bool := c.isDigit || c == '_'

/-- A hexadecimal digit in either case, or an underscore. -/
def isHexOrMark (c : Char) : Bool :=
  c.isDigit || ('a' ≤ c && c ≤ 'f') || ('A' ≤ c && c ≤ 'F') || c == '_'

/-- The text starts with a digit. -/
def startsWithDigit (t : Text) : Bool := t.head?.any Char.isDigit

/-- The fraction at the front of a text: its length, zero if there is none. -/
def fractionLength : Text → Nat
  | '.' :: rest => if startsWithDigit rest then 1 + (rest.takeWhile isDigitOrMark).length else 0
  | _ => 0

/-- The exponent at the front of a text: its length, zero if there is none. -/
def exponentLength : Text → Nat
  | c :: rest =>
    if c = 'e' ∨ c = 'E' then
      let sign := if rest.head? = some '+' ∨ rest.head? = some '-' then 1 else 0
      let digits := rest.drop sign
      if startsWithDigit digits then 1 + sign + (digits.takeWhile isDigitOrMark).length else 0
    else 0
  | [] => 0

/-- A number in digits of another base: zero and a letter, then its digits. -/
def basedLength? : Text → Option Nat
  | '0' :: c :: rest =>
    if c = 'x' ∨ c = 'X' ∨ c = 'b' ∨ c = 'B' then some (2 + (rest.takeWhile isHexOrMark).length)
    else none
  | _ => none

/-- The kind of the number at the front of a text, and its length. -/
def read (t : Text) : Kind × Nat :=
  match basedLength? t with
  | some length => (.integer, length)
  | none =>
    let whole := (t.takeWhile isDigitOrMark).length
    let fraction := fractionLength (t.drop whole)
    let exponent := exponentLength (t.drop (whole + fraction))
    (if fraction + exponent = 0 then .integer else .float, whole + fraction + exponent)

end PhpLint.Number

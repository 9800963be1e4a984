import PhpLint.Toml.Value
import PhpLint.Toml.Strings

/-!
# TOML numbers and dates

Integers have 64 bits, so a number that does not fit is refused.  A float may be anything that a
double holds except a positive number so large that it would be rounded to infinity.  Dates and
times are checked against the calendar; a fraction of a second keeps nine digits.
-/

namespace PhpLint.Toml

open Reader

/-- Digits of a class with single underscores among them, the underscores left out. -/
def digitRun (p : Char → Bool) : Reader Text := do
  let first ← oneOf p
  let more ← many (do
    let _ ← maybe (literal ['_'])
    oneOf p)
  return first :: more

/-- The number that digits of a base write. -/
def numberOf (base : Nat) (digits : Text) : Nat :=
  digits.foldl (fun n c => n * base + (hexValue? c).getD 0) 0

/-- A sign: true for minus. -/
def sign : Reader Bool := do
  match ← maybe (oneOf fun c => c == '+' || c == '-') with
  | some c => return c == '-'
  | none => return false

/-- The least natural number that is too large for an integer: two to the power of 63. -/
def integerLimit : Int := 9223372036854775808

/-- A number as an integer of 64 bits, if it fits. -/
def fit (n : Int) : Option Int := if -integerLimit ≤ n ∧ n < integerLimit then some n else none

/-- A decimal number without a leading zero: its sign and digits. -/
def decimal : Reader (Bool × Text) := do
  let negative ← sign
  if (← peek) = some '0' then
    literal ['0']
    return (negative, ['0'])
  else return (negative, ← digitRun Char.isDigit)

/-- A signed number. -/
def signed (negative : Bool) (n : Nat) : Int := if negative then -(n : Int) else n

/-- An integer in another base after its two leading characters. -/
def based (letter : Char) (base : Nat) (p : Char → Bool) : Reader Int := do
  literal ['0', letter]
  fit (numberOf base (← digitRun p))

/-- An integer in any base. -/
def integer : Reader Int := do
  let plain : Reader Int := do
    let (negative, digits) ← decimal
    fit (signed negative (numberOf 10 digits))
  fun t =>
    if Text.startsWith ['0', 'x'] t then based 'x' 16 (fun c => (hexValue? c).isSome) t
    else if Text.startsWith ['0', 'o'] t then based 'o' 8 (fun c => '0' ≤ c && c ≤ '7') t
    else if Text.startsWith ['0', 'b'] t then based 'b' 2 (fun c => c == '0' || c == '1') t
    else plain t

/-- The digits after a decimal point. -/
def fraction : Reader Text := do
  literal ['.']
  digitRun Char.isDigit

/-- An exponent. -/
def exponent : Reader Int := do
  let _ ← oneOf fun c => c == 'e' || c == 'E'
  let negative ← sign
  return signed negative (numberOf 10 (← digitRun Char.isDigit))

/-- The digits, with so many powers of ten, write a number that a double rounds to infinity. -/
def overflows (digits : Text) (power : Int) : Bool :=
  let significant := digits.dropWhile (· == '0')
  let magnitude : Int := significant.length + power
  if significant.isEmpty ∨ magnitude < 309 then false
  else if 309 < magnitude then true
  else
    let scaled := numberOf 10 significant * Nat.pow 10 power.toNat
    (Nat.pow 2 1024 - Nat.pow 2 970) * Nat.pow 10 (-power).toNat ≤ scaled

/-- A float written with a fraction, an exponent or both. -/
def writtenFloat : Reader Value := do
  let (negative, whole) ← decimal
  let digits ← maybe fraction
  let power ← maybe exponent
  if digits.isNone ∧ power.isNone then failure
  let places := digits.getD []
  if !negative && overflows (whole ++ places) (power.getD 0 - places.length) then failure
  return .float

/-- Infinity, or what is not a number. -/
def specialFloat : Reader Value := do
  let _ ← sign
  fun t => ((literal "inf".toList t).or (literal "nan".toList t)).map fun (_, rest) => (.float, rest)

/-- Exactly `n` decimal digits. -/
def digits (n : Nat) : Reader Text := fun t =>
  let taken := t.take n
  if taken.length = n ∧ taken.all Char.isDigit then some (taken, t.drop n) else none

/-- A number of `n` digits between two bounds, as it is written. -/
def bounded (n low high : Nat) : Reader Text := do
  let written ← digits n
  let value := numberOf 10 written
  if low ≤ value ∧ value ≤ high then return written else failure

/-- The number of days in a month. -/
def daysIn (year month : Nat) : Nat :=
  if month = 2 then
    if year % 4 = 0 ∧ (year % 100 ≠ 0 ∨ year % 400 = 0) then 29 else 28
  else if month = 4 ∨ month = 6 ∨ month = 9 ∨ month = 11 then 30
  else 31

/-- A day of the calendar. -/
def date : Reader Text := do
  let year ← digits 4
  literal ['-']
  let month ← bounded 2 1 12
  literal ['-']
  let day ← bounded 2 1 (daysIn (numberOf 10 year) (numberOf 10 month))
  return year ++ '-' :: month ++ '-' :: day

/-- A time of the day, its fraction cut to nine digits and without zeros at its end. -/
def time : Reader Text := do
  let hour ← bounded 2 0 23
  literal [':']
  let minute ← bounded 2 0 59
  literal [':']
  let second ← bounded 2 0 60
  let places ← maybe (do literal ['.']; run1 Char.isDigit)
  let kept := Text.trimEndOf (· == '0') ((places.getD []).take 9)
  return hour ++ ':' :: minute ++ ':' :: second ++ (if kept.isEmpty then [] else '.' :: kept)

/-- The offset of a time from that of Greenwich. -/
def timeOffset : Reader Text := do
  let c ← anyChar
  if c = 'Z' ∨ c = 'z' then return ['Z']
  else if c = '+' ∨ c = '-' then
    let hour ← bounded 2 0 23
    literal [':']
    let minute ← bounded 2 0 59
    let shown := if numberOf 10 hour = 0 ∧ numberOf 10 minute = 0 then '+' else c
    return shown :: hour ++ ':' :: minute
  else failure

/-- A date, a time, or both. -/
def datetime : Reader Text := do
  let dated : Reader Text := do
    let day ← date
    let clock ← maybe (do
      let _ ← oneOf fun c => c == 'T' || c == 't' || c == ' '
      let t ← time
      let offset ← maybe timeOffset
      return 'T' :: t ++ offset.getD [])
    return day ++ clock.getD []
  fun t => (dated t).or (time t)

/-- A number, a date or a time. -/
def numeric : Reader Value := do
  let whole : Reader Value := do return .integer (← integer)
  let dated : Reader Value := do return .datetime (← datetime)
  fun t => ((dated t).or (writtenFloat t)).or ((specialFloat t).or (whole t))

end PhpLint.Toml

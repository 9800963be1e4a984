import PhpLint.Text

/-!
# The type in a return tag

What a return tag says starts with a type and may go on with a description.  A type is a run of
**alternatives** with bars between them.  An alternative is a name made of ASCII letters, digits,
backslashes and square brackets, or the word `array` with anything in parentheses after it.
-/

namespace PhpLint.ReturnType

/-- A character of a type's name. -/
def isTypeChar (c : Char) : Bool := c.isAlphanum || c == '\\' || c == '[' || c == ']'

/-- The length of the word `array` and a group in parentheses at the front of a text. -/
def arrayGroup? (t : Text) : Option Nat :=
  if Text.foldCase (t.take 6) = "array(".toList then
    (Text.cut [')'] (t.drop 6)).map fun (inside, _) => inside.length + 7
  else none

/-- The length of the name at the front of a text. -/
def name? (t : Text) : Option Nat :=
  let n := (t.takeWhile isTypeChar).length
  if n = 0 then none else some n

/-- The length of the alternative at the front of a text. -/
def alternative? (t : Text) : Option Nat := (arrayGroup? t).or (name? t)

/-- The length of the bar at the front of a text. -/
def barLength (t : Text) : Nat := if t.head? = some '|' then 1 else 0

/-- An alternative that is read is not empty, so reading a type ends. -/
theorem alternative?_pos {t : Text} {n : Nat} (h : alternative? t = some n) :
    0 < n ∧ t ≠ [] := by
  simp only [alternative?, Option.or_eq_some_iff] at h
  rcases h with h | ⟨-, h⟩
  · simp only [arrayGroup?] at h
    split at h
    · next ht =>
      obtain ⟨halves, -, rfl⟩ := Option.map_eq_some_iff.1 h
      refine ⟨by simp, ?_⟩
      rintro rfl
      simp [Text.foldCase] at ht
    · simp at h
  · simp only [name?] at h
    split at h
    · simp at h
    · next hn =>
      obtain rfl := Option.some.inj h
      refine ⟨Nat.pos_of_ne_zero hn, ?_⟩
      rintro rfl
      simp at hn

/-- The length of the type at the front of a text. -/
def length (t : Text) : Nat :=
  match _h : alternative? (t.drop (barLength t)) with
  | some n => barLength t + n + length (t.drop (barLength t + n))
  | none => 0
termination_by t.length
decreasing_by
  obtain ⟨hn, ht⟩ := alternative?_pos _h
  have : 0 < t.length := List.length_pos_iff.2 (by rintro rfl; simp at ht)
  simp only [List.length_drop]
  omega

/-- The type at the front of a text. -/
def ofText (t : Text) : Text := t.take (length t)

/-- The alternatives of a type. -/
def alternatives (type : Text) : List Text := Text.splitOn '|' type

end PhpLint.ReturnType

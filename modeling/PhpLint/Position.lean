import PhpLint.Text

/-!
# Positions

A position is a place between two characters of a source: its line and column, counted from one,
and its offset in bytes.  Reading a text moves a position character by character; a line feed moves
it to the start of the next line and every other character one column on.
-/

namespace PhpLint

/-- A place in a source. -/
structure Position where
  line : Nat
  column : Nat
  offset : Nat
  deriving DecidableEq, Repr

namespace Position

/-- The start of a source. -/
def start : Position := ⟨1, 1, 0⟩

/-- The position after one more character. -/
def next (p : Position) (c : Char) : Position :=
  if c = '\n' then ⟨p.line + 1, 1, p.offset + c.utf8Size⟩
  else ⟨p.line, p.column + 1, p.offset + c.utf8Size⟩

/-- The position after a text. -/
def past (p : Position) (t : Text) : Position := t.foldl next p

@[simp] theorem past_nil (p : Position) : p.past [] = p := rfl

@[simp] theorem past_append (p : Position) (s t : Text) : p.past (s ++ t) = (p.past s).past t := by
  simp [past]

/-- Going past a text moves the offset by the bytes of the text. -/
theorem offset_past (p : Position) (t : Text) :
    (p.past t).offset = p.offset + Text.utf8Length t := by
  induction t generalizing p with
  | nil => simp
  | cons c t ih =>
    have h : (p.next c).offset = p.offset + c.utf8Size := by
      unfold next
      split <;> rfl
    rw [Text.utf8Length_cons, ← Nat.add_assoc, ← h]
    exact ih (p.next c)

end Position

end PhpLint

import PhpLint.Symbol.Declaration

/-!
# The readings of a file, step by step

A statement or a body is read by a cursor that goes forward until it finds nothing more.  Each reading
is given here as what its first step answers and what the reading from the next cursor on does, and
the meaning of a name as the search for the import that it starts with.
-/

namespace PhpLint

variable {s : TokenStream} {scope : NameScope}

namespace Import

/-- The index of the alias that is written behind a name. -/
def aliasIndex? (s : TokenStream) (after : Nat) : Option Nat := do
  let word ← s.findNext Kind.isSignificant after
  if Text.sameLetters (s.content word) "as".toList then s.nextSignificant word else none

/-- What a name is known by is its alias if it has one, and else its last segment. -/
theorem aliasFrom_eq (s : TokenStream) (target : Text) (after : Nat) :
    aliasFrom s target after =
      match aliasIndex? s after with
      | some name => (s.content name, name + 1)
      | none => (lastSegment target, after) := rfl

/-- From a cursor on, a statement imports what its first step does and then what it does from the next
cursor on. -/
theorem fromCursor_eq (s : TokenStream) (useIndex : Nat) (c : UseCursor) :
    fromCursor s useIndex c =
      (step s useIndex c).1.toList ++
        ((step s useIndex c).2.map (fromCursor s useIndex)).getD [] := by
  rw [fromCursor]
  split
  · next hstep => rw [hstep, Option.map_none, Option.getD_none, List.append_nil]
  · next hstep => rw [hstep, Option.map_some, Option.getD_some]

end Import

namespace NameScope

/-- The import that makes the front of a name known in the part that the statement at `start` governs. -/
def import? (scope : NameScope) (start : Nat) (first : Text) : Option Import :=
  scope.imports.find? fun im => scope.governs start im.index && Text.sameLetters im.shortName first

/-- A name is absolute, or its front is imported, or it lies in the namespace. -/
theorem qualify_eq (scope : NameScope) (name : Text) (i : Nat) :
    scope.qualify name i =
      match Text.stripStart ['\\'] name with
      | some absolute => absolute
      | none =>
        let mark := (scope.markAt? i).getD ⟨0, []⟩
        match scope.import? mark.index (splitFirst name).1, (splitFirst name).2 with
        | some im, some rest => qualifyWith im.target rest
        | some im, none => im.target
        | none, _ => if mark.name.isEmpty then name else qualifyWith mark.name name := rfl

end NameScope

namespace Declaration

/-- A list of names is its first name and the list behind the comma. -/
theorem namesFrom_eq (s : TokenStream) (start : Nat) :
    namesFrom s start =
      match s.readName? start with
      | none => []
      | some (name, after) => name :: ((nextInList? s after).map (namesFrom s)).getD [] := by
  rw [namesFrom]
  split
  · next hname => rw [hname]
  · next name after hname =>
    rw [hname]
    dsimp only
    split
    · next hnext => rw [hnext, Option.map_none, Option.getD_none]
    · next hnext => rw [hnext, Option.map_some, Option.getD_some]

/-- The members of a body are the one at the cursor and those behind it. -/
theorem membersFrom_of_lt {closer i : Nat} (hi : i < closer) :
    membersFrom s scope closer i =
      memberAt s scope i :: membersFrom s scope closer (memberNext s closer i) := by
  rw [membersFrom, if_pos hi]

theorem membersFrom_of_not_lt {closer i : Nat} (hi : ¬i < closer) :
    membersFrom s scope closer i = [] := by
  rw [membersFrom, if_neg hi]

end Declaration

end PhpLint

import PhpLint.Symbol.Name

/-!
# Import statements

A `use` statement imports names one after another.  Its **cursor** stands where the next name
starts and knows the prefix of the group around it, if a brace opened one.  Each step reads one
name.  A brace after the name opens a group; otherwise the name is imported under its alias, which
is written after `as` or else is its last segment.  A comma leads to the next name, and the brace
that closes a group leads back out of it.

`lt_of_step` says that a step only goes forward, so the reading ends.
-/

namespace PhpLint

/-- A name that a `use` keyword makes known under an alias. -/
structure Import where
  index : Nat
  shortName : Text
  target : Text
  deriving DecidableEq, Repr

/-- Where a `use` statement goes on, and the prefix of the group it is in, empty outside. -/
structure UseCursor where
  index : Nat
  group : Text
  deriving DecidableEq, Repr

namespace Import

/-- The full name that a name in a `use` statement stands for. -/
def targetOf (group name : Text) : Text :=
  if group.isEmpty then stripLeading name else qualifyWith group name

/-- The alias of a target whose name ends before index `after`, and the index past the alias. -/
def aliasFrom (s : TokenStream) (target : Text) (after : Nat) : Text × Nat :=
  let written := do
    let word ← s.findNext Kind.isSignificant after
    if Text.sameLetters (s.content word) "as".toList then s.nextSignificant word else none
  match written with
  | some name => (s.content name, name + 1)
  | none => (lastSegment target, after)

/-- Where the statement goes on after a name that ends before index `after`. -/
def cursorAfter? (s : TokenStream) (group : Text) (after : Nat) : Option UseCursor := do
  let separator ← s.findNext Kind.isSignificant after
  if s.isAt separator .comma then
    return ⟨← s.nextSignificant separator, group⟩
  else if s.isAt separator (.closes .curly) then
    let comma ← s.nextSignificant separator
    if s.isAt comma .comma then return ⟨← s.nextSignificant comma, []⟩ else none
  else none

/-- One step through a `use` statement: what it imports, and where the statement goes on. -/
def step (s : TokenStream) (useIndex : Nat) (c : UseCursor) : Option Import × Option UseCursor :=
  match s.readName? c.index with
  | none => (none, none)
  | some (name, after) =>
    if s.isAt after (.opens .curly) then
      (none, (s.nextSignificant after).map (⟨·, Text.trimEndOf (· == '\\') name⟩))
    else
      let target := targetOf c.group name
      let (shortName, past) := aliasFrom s target after
      (some ⟨useIndex, shortName, target⟩, cursorAfter? s c.group past)

/-- Reading an alias does not lead back. -/
theorem le_aliasFrom (s : TokenStream) (target : Text) (after : Nat) :
    after ≤ (aliasFrom s target after).2 := by
  simp only [aliasFrom]
  split
  · next name h =>
    simp only [Option.bind_eq_bind, Option.bind_eq_some_iff] at h
    obtain ⟨word, h1, h2⟩ := h
    split at h2
    · have := (TokenStream.findNext_eq_some_iff.1 h1).1
      have := (TokenStream.lt_of_nextSignificant h2).1
      simp only
      omega
    · simp at h2
  · exact Nat.le_refl _

/-- The cursor goes on behind the name that was read, or not at all. -/
theorem lt_of_cursorAfter? {s : TokenStream} {group : Text} {after : Nat} {c : UseCursor}
    (h : cursorAfter? s group after = some c) : after < c.index ∧ c.index < s.size := by
  simp only [cursorAfter?, Option.bind_eq_bind, Option.bind_eq_some_iff] at h
  obtain ⟨separator, h1, h2⟩ := h
  have hs := (TokenStream.findNext_eq_some_iff.1 h1).1
  split at h2
  · obtain ⟨i, h3, h4⟩ := Option.bind_eq_some_iff.1 h2
    cases Option.some.inj h4
    have := TokenStream.lt_of_nextSignificant h3
    simp only
    omega
  · split at h2
    · obtain ⟨comma, h3, h4⟩ := Option.bind_eq_some_iff.1 h2
      have := TokenStream.lt_of_nextSignificant h3
      split at h4
      · obtain ⟨i, h5, h6⟩ := Option.bind_eq_some_iff.1 h4
        cases Option.some.inj h6
        have := TokenStream.lt_of_nextSignificant h5
        simp only
        omega
      · simp at h4
    · simp at h2

/-- The cursor goes on behind where it stood, so reading an import ends. -/
theorem lt_of_step {s : TokenStream} {useIndex : Nat} {c next : UseCursor}
    (h : (step s useIndex c).2 = some next) : c.index < next.index ∧ next.index < s.size := by
  simp only [step] at h
  split at h
  · simp at h
  · next name after hn =>
    have hlt := TokenStream.lt_of_readName? hn
    split at h
    · obtain ⟨i, h1, rfl⟩ := Option.map_eq_some_iff.1 h
      have := TokenStream.lt_of_nextSignificant h1
      simp only
      omega
    · have := lt_of_cursorAfter? h
      have := le_aliasFrom s (targetOf c.group name) after
      omega

/-- The imports of a `use` statement from a cursor on. -/
def fromCursor (s : TokenStream) (useIndex : Nat) (c : UseCursor) : List Import :=
  match _h : (step s useIndex c).2 with
  | none => (step s useIndex c).1.toList
  | some next => (step s useIndex c).1.toList ++ fromCursor s useIndex next
termination_by s.size - c.index
decreasing_by
  have := lt_of_step _h
  omega

/-- Imports of functions and constants, which never name a type. -/
def isForeign (word : Text) : Bool :=
  Text.sameLetters word "function".toList || Text.sameLetters word "const".toList

/-- The imports of the `use` statement at an index. -/
def ofUse (s : TokenStream) (useIndex : Nat) : List Import :=
  match s.nextSignificant useIndex with
  | some first => if isForeign (s.content first) then [] else fromCursor s useIndex ⟨first, []⟩
  | none => []

end Import

end PhpLint

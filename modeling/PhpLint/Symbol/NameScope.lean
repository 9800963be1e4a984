import PhpLint.Symbol.Import

/-!
# What names mean in a file

The namespace statements and imports of a file decide which full name a written name stands for.
A namespace statement governs the file up to the next one; an import counts in the part where it
stands.  A `use` inside the body of a type uses traits, and one after a closing parenthesis belongs
to a closure: neither imports anything.
-/

namespace PhpLint

/-- A namespace statement: its index and the namespace it opens. -/
structure NamespaceMark where
  index : Nat
  name : Text
  deriving DecidableEq, Repr

/-- The namespace statements and the imports of a file, in order. -/
structure NameScope where
  marks : List NamespaceMark
  imports : List Import
  deriving Repr

namespace NameScope

/-- The namespace statement at the index, if the keyword there starts one. -/
def mark? (s : TokenStream) (i : Nat) : Option NamespaceMark :=
  if s.isAt i (.keyword .kwNamespace) then
    (s.nextSignificant i).bind fun start =>
      if s.isAt start .backslash then none
      else some ⟨i, ((s.readName? start).map Prod.fst).getD []⟩
  else none

/-- The bodies of the types of a file, named or not. -/
def typeBodies (s : TokenStream) : List (Nat × Nat) :=
  ((List.range s.size).filter fun i => s.isTypeDeclaration i || s.isAnonymousClass i).filterMap s.body?

/-- The `use` keyword at the index starts an import statement, given the type bodies of the file. -/
def startsImport (s : TokenStream) (bodies : List (Nat × Nat)) (i : Nat) : Bool :=
  s.isAt i (.keyword .kwUse) && !bodies.any (TokenStream.inside i) &&
    !(s.previousSignificant i).any (s.isAt · (.closes .round))

/-- The name scope of a file. -/
def ofStream (s : TokenStream) : NameScope :=
  let indices := List.range s.size
  let bodies := typeBodies s
  ⟨indices.filterMap (mark? s), (indices.filter (startsImport s bodies)).flatMap (Import.ofUse s)⟩

/-- The namespace statement that governs an index. -/
def markAt? (scope : NameScope) (i : Nat) : Option NamespaceMark :=
  scope.marks.reverse.find? (·.index < i)

/-- An index lies in the part of the file that the statement at `start` governs. -/
def governs (scope : NameScope) (start i : Nat) : Bool :=
  start ≤ i && ((scope.marks.find? (start < ·.index)).all (i < ·.index))

/-- The first segment of a name, and what follows its separator. -/
def splitFirst (name : Text) : Text × Option Text :=
  match Text.cut ['\\'] name with
  | some (first, rest) => (first, some rest)
  | none => (name, none)

/-- The full name that a name written at an index stands for. -/
def qualify (scope : NameScope) (name : Text) (i : Nat) : Text :=
  match Text.stripStart ['\\'] name with
  | some absolute => absolute
  | none =>
    let mark := (scope.markAt? i).getD ⟨0, []⟩
    let (first, rest) := splitFirst name
    let imported := scope.imports.find? fun im =>
      scope.governs mark.index im.index && Text.sameLetters im.shortName first
    match imported, rest with
    | some im, some rest => qualifyWith im.target rest
    | some im, none => im.target
    | none, _ => if mark.name.isEmpty then name else qualifyWith mark.name name

end NameScope

end PhpLint

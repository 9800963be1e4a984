import PhpLint.Symbol.Table

/-!
# Ancestors and inherited methods

The ancestors of a type are found breadth first along its parents and interfaces.  Declarations may
refer to each other in a circle and to types that no file declares, so the search keeps the names
that it may still list, at the start every name that any declaration refers to, and strikes out each
name it lists.  An ancestry is **complete** when every name in it is declared.

Whether an ancestor declares a method is a question with three answers.  A declaration found decides
it with yes; none found decides it with no only if nothing was left unknown.  The traits of a type
count as part of it, followed through at most sixteen uses in a row.

The search ends because a name that is struck out never enters the list again, and a declaration has
no more supertypes than the whole table: `length_supertypesOf_le`.
-/

namespace PhpLint

/-- The ancestors of a type, nearest first. -/
structure Ancestry where
  names : List Text
  /-- Every one of them is declared. -/
  complete : Bool
  deriving DecidableEq, Repr

/-- A name is among the ancestors, separators in front of it not counted. -/
def Ancestry.has (a : Ancestry) (name : Text) : Bool :=
  a.names.any (Text.sameLetters · (stripLeading name))

namespace SymbolTable

/-- Every name that some declaration of the table refers to as an ancestor. -/
def allSupertypes (t : SymbolTable) : List Text := t.symbols.flatMap TypeSymbol.supertypes

/-- The names that the declaration in force for `name` refers to. -/
def supertypesOf (t : SymbolTable) (name : Text) : List Text :=
  ((t.get? name).map TypeSymbol.supertypes).getD []

/-- What is found under a name is one of the declarations. -/
theorem mem_symbols_of_get? {t : SymbolTable} {name : Text} {symbol : TypeSymbol}
    (h : t.get? name = some symbol) : symbol ∈ t.symbols :=
  List.mem_reverse.1 (List.mem_of_find?_eq_some h)

/-- A declaration refers to no more names than the whole table does. -/
theorem length_supertypesOf_le (t : SymbolTable) (name : Text) :
    (t.supertypesOf name).length ≤ t.allSupertypes.length := by
  cases h : t.get? name with
  | none => simp [supertypesOf, h]
  | some symbol =>
    obtain ⟨xs, ys, e⟩ := List.append_of_mem (mem_symbols_of_get? h)
    simp only [supertypesOf, h, Option.map_some, Option.getD_some, allSupertypes, e,
      List.flatMap_append, List.flatMap_cons, List.length_append]
    omega

/-- The names without those that are `name` up to the case of ASCII letters. -/
def strike (name : Text) (unlisted : List Text) : List Text :=
  unlisted.filter fun other => !Text.sameLetters other name

/-- Striking out a name that is on the list makes the list shorter. -/
theorem length_strike_lt {name : Text} {unlisted : List Text}
    (h : unlisted.any (Text.sameLetters · name) = true) :
    (strike name unlisted).length < unlisted.length := by
  obtain ⟨other, hmem, hsame⟩ := List.any_eq_true.1 h
  exact List.length_filter_lt_length_iff_exists.2 ⟨other, hmem, by simp [hsame]⟩

/-- The names that the queue leads to, breadth first, as long as they are still unlisted. -/
def search (t : SymbolTable) (unlisted queue : List Text) : List Text :=
  match queue with
  | [] => []
  | name :: rest =>
    if unlisted.any (Text.sameLetters · name) then
      name :: t.search (strike name unlisted) (rest ++ t.supertypesOf name)
    else t.search unlisted rest
termination_by unlisted.length * (t.allSupertypes.length + 1) + queue.length
decreasing_by
  · next h =>
    have hlt := Nat.mul_le_mul_right (t.allSupertypes.length + 1) (length_strike_lt h)
    have := t.length_supertypesOf_le name
    simp only [List.length_append, List.length_cons, Nat.succ_mul] at *
    omega
  · simp

/-- The parents and interfaces of a type, and theirs in turn. -/
def ancestors (t : SymbolTable) (name : Text) : Ancestry :=
  match t.get? name with
  | none => ⟨[], false⟩
  | some start =>
    let names := t.search t.allSupertypes start.supertypes
    ⟨names, names.all fun n => (t.get? n).isSome⟩

/-- Some member of a list answers yes; `none` if none does and one does not know. -/
def anyKnown (answer : Text → Option Bool) : List Text → Option Bool
  | [] => some false
  | name :: names =>
    match answer name with
    | some true => some true
    | some false => anyKnown answer names
    | none => if anyKnown answer names = some true then some true else none

/-- A type or one of its traits declares the method, following traits through fewer than `depth`
uses in a row. -/
def declaresMethod (t : SymbolTable) (method : Text) : (depth : Nat) → Text → Option Bool
  | 0, _ => none
  | depth + 1, name =>
    match t.get? name with
    | none => none
    | some symbol =>
      if symbol.declares method then some true
      else anyKnown (t.declaresMethod method depth) symbol.traits

/-- The number of trait uses in a row that are followed. -/
def traitDepth : Nat := 16

/-- An ancestor of the type declares the method; `none` when that cannot be told. -/
def inheritsMethod (t : SymbolTable) (name method : Text) : Option Bool :=
  match t.get? name with
  | none => none
  | some _ =>
    let ancestry := t.ancestors name
    match anyKnown (t.declaresMethod method (traitDepth + 1)) ancestry.names with
    | some true => some true
    | some false => if ancestry.complete then some false else none
    | none => none

end SymbolTable

end PhpLint

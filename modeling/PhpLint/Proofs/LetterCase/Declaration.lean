import PhpLint.Proofs.LetterCase.Scope

/-!
# Declarations with their letters folded

The folded stream declares the same types, with all the names in their headers and bodies folded
(`ofStream_foldCase`).  The keywords and braces that the reading looks for stand where they stood,
so only what is read off between them changes.
-/

namespace PhpLint

open TokenStream (isAt_foldCase)

/-- The declaration with the letters of all its names folded. -/
def TypeSymbol.foldCase (symbol : TypeSymbol) : TypeSymbol where
  name := Text.foldCase symbol.name
  sort := symbol.sort
  parents := symbol.parents.map Text.foldCase
  interfaces := symbol.interfaces.map Text.foldCase
  traits := symbol.traits.map Text.foldCase
  methods := symbol.methods.map Text.foldCase

namespace Declaration

/-- The member with its letters folded. -/
def Member.foldCase : Member → Member
  | .method name => .method (Text.foldCase name)
  | .traits names => .traits (names.map Text.foldCase)
  | .other => .other

variable (s : TokenStream) (scope : NameScope)

/-! ## Lists of names -/

@[simp] theorem nextInList?_foldCase (after : Nat) :
    nextInList? s.foldCase after = nextInList? s after := by
  simp [nextInList?]

/-- The names of a list are read folded. -/
theorem namesFrom_foldCase (start : Nat) :
    namesFrom s.foldCase start = (namesFrom s start).map Text.foldCase := by
  induction start using namesFrom.induct s with
  | case1 start hnone =>
    rw [namesFrom_eq, namesFrom_eq, s.readName?_foldCase, hnone]
    rfl
  | case2 start name after hname hlast =>
    rw [namesFrom_eq, namesFrom_eq s, s.readName?_foldCase, hname]
    dsimp only [Option.map_some, Prod.map_apply, id]
    rw [nextInList?_foldCase, hlast]
    rfl
  | case3 start name after hname next hnext ih =>
    rw [namesFrom_eq, namesFrom_eq s, s.readName?_foldCase, hname]
    dsimp only [Option.map_some, Prod.map_apply, id]
    rw [nextInList?_foldCase, hnext]
    exact congrArg (Text.foldCase name :: ·) ih

/-- The names behind a keyword, in full, are read folded. -/
theorem namesAfter_foldCase (keyword : Nat) :
    namesAfter s.foldCase scope.foldCase keyword =
      (namesAfter s scope keyword).map Text.foldCase := by
  unfold namesAfter
  rw [s.nextSignificant_foldCase]
  cases s.nextSignificant keyword with
  | none => rfl
  | some start =>
    simp only [namesFrom_foldCase, List.map_map, Function.comp_def, NameScope.qualify_foldCase]

/-- What a header lists is read folded. -/
theorem listedIn_foldCase (p : Kind → Bool) (start stop : Nat) :
    listedIn s.foldCase scope.foldCase p start stop =
      (listedIn s scope p start stop).map Text.foldCase := by
  unfold listedIn
  simp only [s.has_foldCase]
  cases (List.range' start (stop - start)).reverse.find? (s.has · p) with
  | none => rfl
  | some keyword => exact namesAfter_foldCase s scope keyword

/-! ## The cursor of a body -/

@[simp] theorem startsMethod_foldCase (i : Nat) : startsMethod s.foldCase i = startsMethod s i := by
  simp [startsMethod]

/-- A member is read folded. -/
theorem memberAt_foldCase (i : Nat) :
    memberAt s.foldCase scope.foldCase i = (memberAt s scope i).foldCase := by
  unfold memberAt
  rw [startsMethod_foldCase, s.declaredName?_foldCase, isAt_foldCase, namesAfter_foldCase]
  split
  · cases s.declaredName? i <;> rfl
  · split <;> rfl

theorem memberNext_foldCase (closer i : Nat) :
    memberNext s.foldCase closer i = memberNext s closer i := by
  simp [memberNext, memberEnd]

/-- The members of a body are read folded. -/
theorem membersFrom_foldCase (closer i : Nat) :
    membersFrom s.foldCase scope.foldCase closer i =
      (membersFrom s scope closer i).map Member.foldCase := by
  induction i using membersFrom.induct s closer with
  | case1 i hlt ih =>
    rw [membersFrom_of_lt hlt, membersFrom_of_lt hlt, memberAt_foldCase, memberNext_foldCase, ih]
    rfl
  | case2 i hge =>
    rw [membersFrom_of_not_lt hge, membersFrom_of_not_lt hge]
    rfl

theorem traitNames_foldCase (m : Member) :
    m.foldCase.traitNames = m.traitNames.map Text.foldCase := by
  cases m <;> rfl

theorem method?_foldCase (m : Member) : m.foldCase.method? = m.method?.map Text.foldCase := by
  cases m <;> rfl

/-! ## Types -/

/-- A type is read folded, with all the names in it. -/
theorem read?_foldCase (i : Nat) :
    read? s.foldCase scope.foldCase i = (read? s scope i).map TypeSymbol.foldCase := by
  unfold read?
  rw [s.kind?_foldCase, s.declaredName?_foldCase, s.body?_foldCase]
  cases (s.kind? i).bind sortOf? with
  | none => rfl
  | some sort =>
    cases s.declaredName? i with
    | none => rfl
    | some shortName =>
      cases s.body? i with
      | none => rfl
      | some body =>
        obtain ⟨opener, closer⟩ := body
        have hparents (p : Prop) [Decidable p] (names : List Text) :
            (if p then [] else names.map Text.foldCase) =
              (if p then [] else names).map Text.foldCase := by
          split <;> rfl
        simp only [Option.bind_eq_bind, Option.bind_some, Option.map_some, listedIn_foldCase,
          hparents, membersFrom_foldCase, NameScope.qualify_foldCase, List.flatMap_map,
          List.filterMap_map, traitNames_foldCase, Function.comp_def, method?_foldCase,
          TypeSymbol.foldCase, List.map_flatMap, List.map_filterMap]

/-- **The folded stream declares the folded types.**. -/
theorem ofStream_foldCase : ofStream s.foldCase = (ofStream s).map TypeSymbol.foldCase := by
  simp only [ofStream, s.size_foldCase, NameScope.ofStream_foldCase, List.map_filterMap,
    funext s.isTypeDeclaration_foldCase, funext (read?_foldCase s (NameScope.ofStream s))]

end Declaration

end PhpLint

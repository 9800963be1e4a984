import PhpLint.Proofs.LetterCase.Stream
import PhpLint.Proofs.Symbols.Unfolding

/-!
# What names mean with their letters folded

The folded stream imports the same names, folded, at the same keywords, and its namespaces have the
same names, folded: the words `as`, `function` and `const` and the front of a name are compared up to
case.  So the full name of a folded name is the full name, folded (`qualify_foldCase`).
-/

namespace PhpLint

/-! ## Imports -/

/-- The import with its letters folded. -/
def Import.foldCase (im : Import) : Import :=
  ⟨im.index, Text.foldCase im.shortName, Text.foldCase im.target⟩

/-- The cursor with the letters of its group folded. -/
def UseCursor.foldCase (c : UseCursor) : UseCursor := ⟨c.index, Text.foldCase c.group⟩

namespace Import

variable (s : TokenStream)

/-- An alias stands where it stood, since the word before it is read in any case. -/
theorem aliasIndex?_foldCase (after : Nat) :
    aliasIndex? s.foldCase after = aliasIndex? s after := by
  simp [aliasIndex?]

/-- An alias, or the last word in place of it, is read folded. -/
theorem aliasFrom_foldCase (target : Text) (after : Nat) :
    aliasFrom s.foldCase (Text.foldCase target) after =
      Prod.map Text.foldCase id (aliasFrom s target after) := by
  rw [aliasFrom_eq, aliasFrom_eq, aliasIndex?_foldCase]
  cases aliasIndex? s after with
  | none => exact congrArg (·, after) (lastSegment_foldCase target)
  | some name => exact congrArg (·, name + 1) (s.content_foldCase name)

/-- The cursor comes to the same name of the group, folded. -/
theorem cursorAfter?_foldCase (group : Text) (after : Nat) :
    cursorAfter? s.foldCase (Text.foldCase group) after =
      (cursorAfter? s group after).map UseCursor.foldCase := by
  unfold cursorAfter?
  rw [s.findNext_foldCase]
  cases s.findNext Kind.isSignificant after with
  | none => rfl
  | some separator =>
    simp only [Option.bind_eq_bind, Option.bind_some, s.isAt_foldCase, s.nextSignificant_foldCase]
    by_cases hcomma : s.isAt separator .comma = true
    · rw [if_pos hcomma, if_pos hcomma]
      cases s.nextSignificant separator <;> rfl
    · rw [if_neg hcomma, if_neg hcomma]
      by_cases hcloser : s.isAt separator (.closes .curly) = true
      · rw [if_pos hcloser]
        cases s.nextSignificant separator with
        | none => rfl
        | some comma =>
          rw [Option.bind_some]
          by_cases hcomma' : s.isAt comma .comma = true
          · rw [if_pos hcomma']
            cases s.nextSignificant comma <;> rfl
          · rw [if_neg hcomma']
            rfl
      · rw [if_neg hcloser]
        rfl

/-- A step through a statement imports the folded name and goes on at the same index. -/
theorem step_foldCase (useIndex : Nat) (c : UseCursor) :
    step s.foldCase useIndex c.foldCase =
      ((step s useIndex c).1.map Import.foldCase, (step s useIndex c).2.map UseCursor.foldCase) := by
  have hread : s.foldCase.readName? c.foldCase.index = _ := s.readName?_foldCase c.index
  unfold step
  rw [hread]
  cases s.readName? c.index with
  | none => rfl
  | some read =>
    obtain ⟨name, after⟩ := read
    have halias := aliasFrom_foldCase s (targetOf c.group name) after
    rw [← targetOf_foldCase] at halias
    simp only [Option.map_some, Prod.map_apply, id, s.isAt_foldCase, s.nextSignificant_foldCase]
    by_cases hopener : s.isAt after (.opens .curly) = true
    · rw [if_pos hopener, if_pos hopener]
      cases s.nextSignificant after with
      | none => rfl
      | some first =>
        exact congrArg (fun group => (none, some (UseCursor.mk first group)))
          (Text.trimEndOf_foldCase name)
    · rw [if_neg hopener, if_neg hopener]
      have hshort := congrArg Prod.fst halias
      have hpast := congrArg Prod.snd halias
      dsimp only [UseCursor.foldCase] at *
      rw [hshort, hpast, targetOf_foldCase]
      exact congrArg (some _, ·) (cursorAfter?_foldCase s c.group _)

/-- The rest of a statement imports the folded names. -/
theorem fromCursor_foldCase (useIndex : Nat) (c : UseCursor) :
    fromCursor s.foldCase useIndex c.foldCase = (fromCursor s useIndex c).map Import.foldCase := by
  have hfirst (o : Option Import) :
      (o.map Import.foldCase).toList = o.toList.map Import.foldCase := by
    cases o <;> rfl
  induction c using fromCursor.induct s useIndex with
  | case1 c hstop =>
    rw [fromCursor_eq, fromCursor_eq, step_foldCase, hstop, List.map_append, hfirst]
    rfl
  | case2 c next hgo ih =>
    rw [fromCursor_eq, fromCursor_eq s, step_foldCase, hgo, List.map_append, hfirst]
    exact congrArg (_ ++ ·) ih

/-- The imports of a `use` statement. -/
theorem ofUse_foldCase (useIndex : Nat) :
    ofUse s.foldCase useIndex = (ofUse s useIndex).map Import.foldCase := by
  unfold ofUse
  rw [s.nextSignificant_foldCase]
  cases s.nextSignificant useIndex with
  | none => rfl
  | some first =>
    have hforeign : isForeign (s.foldCase.content first) = isForeign (s.content first) := by
      simp [isForeign]
    dsimp only
    rw [hforeign]
    by_cases h : isForeign (s.content first) = true
    · rw [if_pos h, if_pos h]
      rfl
    · rw [if_neg h, if_neg h]
      exact fromCursor_foldCase s useIndex ⟨first, []⟩

end Import

/-! ## The scope of a file -/

/-- The statement with the letters of its namespace folded. -/
def NamespaceMark.foldCase (m : NamespaceMark) : NamespaceMark := ⟨m.index, Text.foldCase m.name⟩

namespace NameScope

/-- The scope with the letters of all its names folded. -/
def foldCase (scope : NameScope) : NameScope :=
  ⟨scope.marks.map NamespaceMark.foldCase, scope.imports.map Import.foldCase⟩

section Stream

variable (s : TokenStream)

/-- A namespace statement opens the folded namespace. -/
theorem mark?_foldCase (i : Nat) :
    mark? s.foldCase i = (mark? s i).map NamespaceMark.foldCase := by
  unfold mark?
  rw [s.isAt_foldCase, s.nextSignificant_foldCase]
  split
  · cases s.nextSignificant i with
    | none => rfl
    | some start =>
      rw [Option.bind_some, Option.bind_some, s.isAt_foldCase, s.readName?_foldCase]
      split
      · rfl
      · cases s.readName? start <;> rfl
  · rfl

theorem startsImport_foldCase (bodies : List (Nat × Nat)) (i : Nat) :
    startsImport s.foldCase bodies i = startsImport s bodies i := by
  simp [startsImport]

theorem typeBodies_foldCase : typeBodies s.foldCase = typeBodies s := by
  simp [typeBodies]

/-- The scope of the folded stream is the folded scope. -/
theorem ofStream_foldCase : ofStream s.foldCase = (ofStream s).foldCase := by
  simp only [ofStream, foldCase, s.size_foldCase, typeBodies_foldCase,
    funext (startsImport_foldCase s (typeBodies s)), funext (mark?_foldCase s),
    funext (Import.ofUse_foldCase s), List.map_filterMap, List.map_flatMap]

end Stream

/-! ## Full names -/

variable (scope : NameScope)

/-- The same statement governs an index, with its namespace folded. -/
theorem markAt?_foldCase (i : Nat) :
    scope.foldCase.markAt? i = (scope.markAt? i).map NamespaceMark.foldCase := by
  rw [markAt?, markAt?, foldCase, ← List.map_reverse, List.find?_map]
  rfl

theorem governs_foldCase (start i : Nat) :
    scope.foldCase.governs start i = scope.governs start i := by
  rw [governs, governs, foldCase, List.find?_map, Option.all_map]
  rfl

/-- A folded name is imported by what imported the name, folded. -/
theorem import?_foldCase (start : Nat) (first : Text) :
    scope.foldCase.import? start (Text.foldCase first) =
      (scope.import? start first).map Import.foldCase := by
  have hfits : (fun im : Import => scope.foldCase.governs start im.index &&
        Text.sameLetters im.shortName (Text.foldCase first)) ∘ Import.foldCase =
      fun im => scope.governs start im.index && Text.sameLetters im.shortName first := by
    funext im
    simp only [Function.comp_apply, Import.foldCase, governs_foldCase,
      Text.sameLetters_foldCase_left, Text.sameLetters_foldCase_right]
  rw [import?, import?, ← hfits, foldCase, List.find?_map]

/-- The full name of a name whose letters are folded, where all names are. -/
theorem qualify_foldCase (name : Text) (i : Nat) :
    scope.foldCase.qualify (Text.foldCase name) i = Text.foldCase (scope.qualify name i) := by
  have hmark : (scope.foldCase.markAt? i).getD ⟨0, []⟩ =
      ((scope.markAt? i).getD ⟨0, []⟩).foldCase := by
    rw [markAt?_foldCase]
    cases scope.markAt? i <;> rfl
  rw [qualify_eq, qualify_eq, Text.stripStart_foldCase, hmark, splitFirst_foldCase]
  cases Text.stripStart ['\\'] name with
  | some absolute => rfl
  | none =>
    generalize (scope.markAt? i).getD ⟨0, []⟩ = mark
    have himport :
        scope.foldCase.import? mark.foldCase.index (Text.foldCase (splitFirst name).1) = _ :=
      scope.import?_foldCase mark.index (splitFirst name).1
    dsimp only [Option.map_none]
    rw [himport]
    cases scope.import? mark.index (splitFirst name).1 with
    | some im =>
      cases (splitFirst name).2 with
      | none => rfl
      | some rest => exact qualifyWith_foldCase im.target rest
    | none =>
      simp only [Option.map_none, NamespaceMark.foldCase, Text.isEmpty_foldCase,
        qualifyWith_foldCase]
      split <;> rfl

end NameScope

end PhpLint

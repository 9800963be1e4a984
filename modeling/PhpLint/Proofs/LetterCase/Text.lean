import PhpLint.Proofs.Symbols.Reachability
import PhpLint.Symbol.NameScope

/-!
# Texts and names with their letters folded

To fold a text changes its upper-case letters and nothing else, so it leaves the separators of a name
where they stand, and whatever cuts a name at its separators cuts the folded name at the same places.
Every operation on names commutes with folding; that is all that is said here, one lemma for each.
-/

namespace PhpLint

/-! ## Characters -/

theorem isSegmentChar_comp_toLower : isSegmentChar ∘ Char.toLower = isSegmentChar :=
  comp_toLower (by decide)

/-! ## Texts -/

namespace Text

@[simp] theorem foldCase_nil : foldCase [] = [] := rfl

@[simp] theorem foldCase_cons (c : Char) (t : Text) : foldCase (c :: t) = c.toLower :: foldCase t :=
  rfl

@[simp] theorem foldCase_append (s t : Text) : foldCase (s ++ t) = foldCase s ++ foldCase t :=
  List.map_append

/-- A folded text stays as it is. -/
@[simp] theorem foldCase_foldCase (t : Text) : foldCase (foldCase t) = foldCase t := by
  rw [foldCase, foldCase, List.map_map]
  exact congrArg (List.map · t) (funext toLower_toLower)

@[simp] theorem isEmpty_foldCase (t : Text) : (foldCase t).isEmpty = t.isEmpty := by
  simp [foldCase]

@[simp] theorem sameLetters_foldCase_left (s t : Text) :
    sameLetters (foldCase s) t = sameLetters s t := by
  rw [sameLetters, foldCase_foldCase, sameLetters]

@[simp] theorem sameLetters_foldCase_right (s t : Text) :
    sameLetters s (foldCase t) = sameLetters s t := by
  rw [sameLetters, foldCase_foldCase, sameLetters]

@[simp] theorem all_isSegmentChar_foldCase (t : Text) :
    (foldCase t).all isSegmentChar = t.all isSegmentChar := by
  rw [foldCase, List.all_map, isSegmentChar_comp_toLower]

/-- A folded text ends in a separator when the text does. -/
theorem getLast?_foldCase_eq_backslash (t : Text) :
    (foldCase t).getLast? = some '\\' ↔ t.getLast? = some '\\' := by
  rw [foldCase, List.getLast?_map, Option.map_eq_some_iff]
  simp only [toLower_eq_backslash_iff, exists_eq_right]

/-- Only the reference sign folds to the reference sign. -/
theorem foldCase_eq_ampersand (t : Text) : foldCase t = ['&'] ↔ t = ['&'] := by
  have hchar (c : Char) : c.toLower = '&' ↔ c = '&' := by
    have hsame := congrFun (comp_toLower (f := (· == '&')) (by decide)) c
    rw [← beq_iff_eq, ← beq_iff_eq (a := c), ← hsame]
    rfl
  rw [foldCase, List.map_eq_singleton_iff]
  simp only [hchar, exists_eq_right]

/-! ### Cutting at separators -/

/-- A separator in front is taken off a folded text as off the text. -/
theorem stripStart_foldCase (t : Text) :
    stripStart ['\\'] (foldCase t) = (stripStart ['\\'] t).map foldCase := by
  cases t with
  | nil => rfl
  | cons c rest =>
    by_cases hc : '\\' = c
    · subst hc
      rfl
    · have hlower : '\\' ≠ c.toLower := fun h => hc ((toLower_eq_backslash_iff c).1 h.symm).symm
      simp only [foldCase_cons, stripStart, if_neg hc, if_neg hlower, Option.map_none]

/-- A folded text is cut at the first separator of the text. -/
theorem cut_foldCase (t : Text) :
    cut ['\\'] (foldCase t) = (cut ['\\'] t).map (Prod.map foldCase foldCase) := by
  induction t with
  | nil => rfl
  | cons c rest ih =>
    have hstrip := stripStart_foldCase (c :: rest)
    rw [foldCase_cons] at hstrip ⊢
    rw [cut, cut, hstrip, ih]
    cases stripStart ['\\'] (c :: rest) with
    | some after => rfl
    | none => cases cut ['\\'] rest <;> rfl

/-- A folded text has the folded segments. -/
theorem splitOn_foldCase (t : Text) :
    splitOn '\\' (foldCase t) = (splitOn '\\' t).map foldCase := by
  induction t with
  | nil => rfl
  | cons c rest ih =>
    rw [foldCase_cons, splitOn, splitOn, ih]
    by_cases hc : c = '\\'
    · rw [if_pos hc, if_pos ((toLower_eq_backslash_iff c).2 hc)]
      rfl
    · rw [if_neg hc, if_neg (mt (toLower_eq_backslash_iff c).1 hc)]
      cases splitOn '\\' rest <;> rfl

/-- The separators behind a folded text are those behind the text. -/
theorem trimEndOf_foldCase (t : Text) :
    trimEndOf (· == '\\') (foldCase t) = foldCase (trimEndOf (· == '\\') t) := by
  rw [trimEndOf, trimEndOf, foldCase, foldCase, ← List.map_reverse, List.dropWhile_map,
    beq_backslash_comp_toLower, List.map_reverse]

end Text

open Text

/-! ## Names -/

/-- The last segment of a folded name is the folded last segment. -/
theorem lastSegment_foldCase (name : Text) :
    lastSegment (foldCase name) = foldCase (lastSegment name) := by
  rw [lastSegment, lastSegment, splitOn_foldCase, List.getLast?_map]
  cases (splitOn '\\' name).getLast? <;> rfl

/-- A folded name in a folded namespace is the folded name. -/
theorem qualifyWith_foldCase (namespaceName name : Text) :
    qualifyWith (foldCase namespaceName) (foldCase name) =
      foldCase (qualifyWith namespaceName name) := by
  simp [qualifyWith]

/-- A folded name in a folded group is the folded target. -/
theorem Import.targetOf_foldCase (group name : Text) :
    targetOf (foldCase group) (foldCase name) = foldCase (targetOf group name) := by
  rw [targetOf, targetOf, isEmpty_foldCase]
  split
  · exact (foldCase_stripLeading name).symm
  · exact qualifyWith_foldCase group name

/-- The first segment of a folded name and what follows it are folded. -/
theorem NameScope.splitFirst_foldCase (name : Text) :
    splitFirst (foldCase name) =
      (foldCase (splitFirst name).1, (splitFirst name).2.map foldCase) := by
  rw [splitFirst, splitFirst, cut_foldCase]
  cases cut ['\\'] name <;> rfl

end PhpLint

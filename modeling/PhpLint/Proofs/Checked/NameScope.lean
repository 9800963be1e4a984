import PhpLint.Proofs.Checked.Stream
import PhpLint.Symbol.NameScope

/-!
# Names and imports with checked accesses

A name ends at an index that may be the one past the last token, and a `use` statement goes on at an
index that it has found.  Its loop stops with `stuck` here if that index is not behind the one before,
and it never is: `importsFrom_eq`.  The names of a whole file follow, `nameScope_eq`.
-/

namespace PhpLint.Checked

open TokenStream (Fits)

variable {s : TokenStream} {i j : Nat}

/-! ## Names -/

/-- The name that goes on over at most `n` tokens from index `i`, and the index past it. -/
def nameFrom (s : TokenStream) (name : Text) : (n i : Nat) → Checked (Text × Nat)
  | 0, i => return (name, i)
  | n + 1, i => do
    match (s.token? i).bind (namePart? name) with
    | some part => nameFrom s (name ++ part) n (← plus i 1)
    | none => return (name, i)

/-- The name that starts at an index, and the index past it. -/
def readName? (s : TokenStream) (start : Nat) : Checked (Option (Text × Nat)) := do
  let (name, stop) ← nameFrom s [] (s.size - start) start
  return if name.isEmpty then none else some (name, stop)

/-- A name is read from every index: where no token is, it ends. -/
theorem nameFrom_eq (hs : s.Fits) (name : Text) (n i : Nat) :
    nameFrom s name n i = .ok (s.nameFrom name n i) := by
  have hsize := hs.size
  induction n generalizing name i with
  | zero => rfl
  | succ n ih =>
    rw [nameFrom, TokenStream.nameFrom]
    cases htoken : s.token? i with
    | none => rfl
    | some t =>
      have hi : i < s.size := (Array.getElem?_eq_some_iff.1 htoken).1
      cases hpart : namePart? name t with
      | none => simp [hpart]
      | some part =>
        simp only [Option.bind_some, hpart]
        rw [plus_eq (by omega), ok_bind, ih]

/-- A name that starts at an index is read from every index. -/
theorem readName?_eq (hs : s.Fits) (i : Nat) : readName? s i = .ok (s.readName? i) := by
  rw [readName?, nameFrom_eq hs, ok_bind]
  rfl

/-- A name ends no further than one past the last token. -/
theorem le_nameFrom_size (name : Text) (n i : Nat) (hi : i + n ≤ s.size) :
    (s.nameFrom name n i).2 ≤ s.size := by
  induction n generalizing name i with
  | zero => exact hi
  | succ n ih =>
    rw [TokenStream.nameFrom]
    split
    · exact ih _ _ (by omega)
    · omega

/-- A name that starts in the stream ends no further than one past the last token. -/
theorem le_size_of_readName? {name : Text} (h : s.readName? i = some (name, j)) (hi : i < s.size) :
    j ≤ s.size := by
  have hle := le_nameFrom_size (s := s) [] (s.size - i) i (by omega)
  unfold TokenStream.readName? at h
  dsimp only at h
  split at h
  · cases h
  · obtain ⟨-, rfl⟩ := Prod.mk.inj (Option.some.inj h)
    exact hle

/-! ## Imports -/

/-- The alias of a target whose name ends before index `after`, and the index past the alias.  The
search starts at `after`, behind the index before it. -/
def aliasFrom (s : TokenStream) (target : Text) (after : Nat) : Checked (Text × Nat) := do
  let written ← andThen (nextSignificant s (after - 1)) fun word => do
    if Text.sameLetters (← look s word TokenStream.content) "as".toList then nextSignificant s word
    else return none
  match written with
  | some name => return (← look s name TokenStream.content, ← plus name 1)
  | none => return (lastSegment target, after)

/-- Where the statement goes on after a name that ends before index `after`. -/
def cursorAfter? (s : TokenStream) (group : Text) (after : Nat) : Checked (Option UseCursor) :=
  andThen (findNext s Kind.isSignificant after) fun separator => do
    if ← look s separator (·.isAt · .comma) then
      andThen (nextSignificant s separator) fun i => return some ⟨i, group⟩
    else if ← look s separator (·.isAt · (.closes .curly)) then
      andThen (nextSignificant s separator) fun comma => do
        if ← look s comma (·.isAt · .comma) then
          andThen (nextSignificant s comma) fun i => return some ⟨i, []⟩
        else return none
    else return none

/-- One step through a `use` statement: what it imports, and where the statement goes on. -/
def useStep (s : TokenStream) (useIndex : Nat) (c : UseCursor) :
    Checked (Option Import × Option UseCursor) := do
  match ← readName? s c.index with
  | none => return (none, none)
  | some (name, after) =>
    if s.isAt after (.opens .curly) then
      let next ← nextSignificant s after
      return (none, next.map (⟨·, Text.trimEndOf (· == '\\') name⟩))
    else
      let target := Import.targetOf c.group name
      let (shortName, past) ← aliasFrom s target after
      return (some ⟨useIndex, shortName, target⟩, ← cursorAfter? s c.group past)

/-- The imports of a `use` statement from a cursor on. -/
def importsFrom (s : TokenStream) (useIndex : Nat) (c : UseCursor) : Checked (List Import) := do
  match ← useStep s useIndex c with
  | (found, none) => return found.toList
  | (found, some next) =>
    if _h : c.index < next.index ∧ next.index < s.size then
      return found.toList ++ (← importsFrom s useIndex next)
    else .error .stuck
termination_by s.size - c.index

/-- The imports of the `use` statement at an index. -/
def importsOf (s : TokenStream) (useIndex : Nat) : Checked (List Import) := do
  match ← nextSignificant s useIndex with
  | some first =>
    if Import.isForeign (← look s first TokenStream.content) then return []
    else importsFrom s useIndex ⟨first, []⟩
  | none => return []

/-- The alias behind a name is read, since a name does not end at the first index. -/
theorem aliasFrom_eq (hs : s.Fits) (target : Text) (hpos : 0 < i) (hi : i ≤ s.size) :
    aliasFrom s target i = .ok (Import.aliasFrom s target i) := by
  have hsize := hs.size
  have hstart : i - 1 + 1 = i := by omega
  have hword : nextSignificant s (i - 1) = .ok (s.findNext Kind.isSignificant i) := by
    rw [nextSignificant_eq (by omega), TokenStream.nextSignificant, hstart]
  let behind (word : Nat) : Option Nat :=
    if Text.sameLetters (s.content word) "as".toList then s.nextSignificant word else none
  have hwritten : (andThen (nextSignificant s (i - 1)) fun word => do
      if Text.sameLetters (← look s word TokenStream.content) "as".toList then nextSignificant s word
      else return none) = .ok ((s.findNext Kind.isSignificant i).bind behind) := by
    refine andThen_eq hword fun word hfound => ?_
    have hlt := lt_size_of_findNext hfound
    rw [look_eq hlt, ok_bind]
    unfold behind
    split
    · exact nextSignificant_eq (by omega)
    · rfl
  have halias : Import.aliasFrom s target i =
      match (s.findNext Kind.isSignificant i).bind behind with
      | some name => (s.content name, name + 1)
      | none => (lastSegment target, i) := rfl
  rw [aliasFrom, hwritten, ok_bind, halias]
  cases hname : (s.findNext Kind.isSignificant i).bind behind with
  | none => rfl
  | some name =>
    obtain ⟨word, -, hbehind⟩ := Option.bind_eq_some_iff.1 hname
    have hlt : name < s.size := by
      unfold behind at hbehind
      split at hbehind
      · exact lt_size_of_nextSignificant hbehind
      · cases hbehind
    simp only [look_eq hlt, ok_bind, plus_eq (i := name) (n := 1) (by omega), pure_eq]

/-- Where a statement goes on is found from every index. -/
theorem cursorAfter?_eq (hs : s.Fits) (group : Text) (i : Nat) :
    cursorAfter? s group i = .ok (Import.cursorAfter? s group i) := by
  have hsize := hs.size
  have hnext {k : Nat} (hk : k < s.size) (group : Text) :
      (andThen (nextSignificant s k) fun i => return some ⟨i, group⟩) =
        .ok ((s.nextSignificant k).bind fun i => some (⟨i, group⟩ : UseCursor)) :=
    andThen_eq (nextSignificant_eq (by omega)) fun _ _ => rfl
  refine andThen_eq (findNext_eq s _ _) fun separator hseparator => ?_
  have hlt := lt_size_of_findNext hseparator
  rw [look_eq hlt, ok_bind]
  split
  · exact hnext hlt group
  rw [look_eq hlt, ok_bind]
  split
  · refine andThen_eq (nextSignificant_eq (by omega)) fun comma hcomma => ?_
    have hlt' := lt_size_of_nextSignificant hcomma
    rw [look_eq hlt', ok_bind]
    split
    · exact hnext hlt' []
    · rfl
  · rfl

/-- One step through an import statement is made from a token of the stream. -/
theorem useStep_eq (hs : s.Fits) (useIndex : Nat) {c : UseCursor} (hc : c.index < s.size) :
    useStep s useIndex c = .ok (Import.step s useIndex c) := by
  have hsize := hs.size
  rw [useStep, readName?_eq hs, ok_bind, Import.step]
  cases hname : s.readName? c.index with
  | none => rfl
  | some found =>
    obtain ⟨name, after⟩ := found
    have hpos := TokenStream.lt_of_readName? hname
    have hle := le_size_of_readName? hname hc
    dsimp only
    split
    · rw [nextSignificant_eq (by omega)]
      rfl
    · rw [aliasFrom_eq hs _ (by omega) hle, ok_bind, cursorAfter?_eq hs]
      rfl

/-- The loop through an import statement goes forward with every step. -/
theorem importsFrom_eq (hs : s.Fits) (useIndex : Nat) (c : UseCursor) (hc : c.index < s.size) :
    importsFrom s useIndex c = .ok (Import.fromCursor s useIndex c) := by
  fun_induction Import.fromCursor s useIndex c with
  | case1 c hstep =>
    rw [importsFrom, useStep_eq hs useIndex hc, ok_bind]
    generalize Import.step s useIndex c = found at hstep ⊢
    obtain ⟨found, next⟩ := found
    obtain rfl := hstep
    rfl
  | case2 c next hstep ih =>
    have hlt := Import.lt_of_step hstep
    have hrest := ih hlt.2
    rw [importsFrom, useStep_eq hs useIndex hc, ok_bind]
    generalize Import.step s useIndex c = found at hstep ⊢
    obtain ⟨found, next'⟩ := found
    obtain rfl := hstep
    simp only [dif_pos hlt, hrest, ok_bind, pure_eq]

/-- The imports of a statement are read from a keyword in the stream. -/
theorem importsOf_eq (hs : s.Fits) (hi : i < s.size) : importsOf s i = .ok (Import.ofUse s i) := by
  have hsize := hs.size
  rw [importsOf, nextSignificant_eq (by omega), ok_bind, Import.ofUse]
  cases hfirst : s.nextSignificant i with
  | none => rfl
  | some first =>
    have hlt := lt_size_of_nextSignificant hfirst
    dsimp only
    rw [look_eq hlt, ok_bind]
    split
    · rfl
    · exact importsFrom_eq hs i _ hlt

/-! ## The name scope -/

/-- The namespace statement at the index, if the keyword there starts one. -/
def mark? (s : TokenStream) (i : Nat) : Checked (Option NamespaceMark) :=
  if s.isAt i (.keyword .kwNamespace) then
    andThen (nextSignificant s i) fun start => do
      if ← look s start (·.isAt · .backslash) then return none
      return some ⟨i, ((← readName? s start).map Prod.fst).getD []⟩
  else return none

/-- The bodies of the types of a file, named or not. -/
def typeBodies (s : TokenStream) : Checked (List (Nat × Nat)) := do
  let keywords ← keep (fun i => isTypeDeclaration s i <||> isAnonymousClass s i) (List.range s.size)
  gatherSome (body? s) keywords

/-- The `use` keyword at the index starts an import statement, given the type bodies of the file. -/
def startsImport (s : TokenStream) (bodies : List (Nat × Nat)) (i : Nat) : Checked Bool := do
  if s.isAt i (.keyword .kwUse) then
    let behindParenthesis ← anyAt (previousSignificant s i) (look s · (·.isAt · (.closes .round)))
    return !bodies.any (TokenStream.inside i) && !behindParenthesis
  else return false

/-- The name scope of a file. -/
def nameScope (s : TokenStream) : Checked NameScope := do
  let bodies ← typeBodies s
  let marks ← gatherSome (mark? s) (List.range s.size)
  let uses ← keep (startsImport s bodies) (List.range s.size)
  return ⟨marks, ← gather (importsOf s) uses⟩

/-- A namespace statement is read from a token of the stream. -/
theorem mark?_eq (hs : s.Fits) (hi : i < s.size) : mark? s i = .ok (NameScope.mark? s i) := by
  have hsize := hs.size
  unfold mark? NameScope.mark?
  split
  · refine andThen_eq (nextSignificant_eq (by omega)) fun start hstart => ?_
    rw [look_eq (lt_size_of_nextSignificant hstart), ok_bind, readName?_eq hs]
    split <;> rfl
  · rfl

/-- The bodies of the types of a file are found. -/
theorem typeBodies_eq (hs : s.Fits) : typeBodies s = .ok (NameScope.typeBodies s) := by
  have hkeywords : keep (fun i => isTypeDeclaration s i <||> isAnonymousClass s i)
      (List.range s.size) =
      .ok ((List.range s.size).filter fun i => s.isTypeDeclaration i || s.isAnonymousClass i) := by
    refine keep_eq fun i hi => ?_
    have hlt := List.mem_range.1 hi
    exact or_eq (isTypeDeclaration_eq hs hlt) fun _ => isAnonymousClass_eq hs hlt
  rw [typeBodies, hkeywords, ok_bind]
  exact gatherSome_eq fun i hi => body?_eq hs (List.mem_range.1 (List.mem_filter.1 hi).1)

/-- A keyword is known to start an import statement or not. -/
theorem startsImport_eq (hs : s.Fits) (bodies : List (Nat × Nat)) (i : Nat) :
    startsImport s bodies i = .ok (NameScope.startsImport s bodies i) := by
  have hbehind : anyAt (previousSignificant s i) (look s · (·.isAt · (.closes .round))) =
      .ok ((s.previousSignificant i).any (s.isAt · (.closes .round))) :=
    anyAt_eq (previousSignificant_eq hs i) fun p hp =>
      look_eq (lt_size_of_previousSignificant hp) _
  rw [startsImport, hbehind, ok_bind, NameScope.startsImport]
  cases s.isAt i (.keyword .kwUse) <;> rfl

/-- **The names of a file are read without an access out of range.** -/
theorem nameScope_eq (hs : s.Fits) : nameScope s = .ok (NameScope.ofStream s) := by
  have hmarks : gatherSome (mark? s) (List.range s.size) =
      .ok ((List.range s.size).filterMap (NameScope.mark? s)) :=
    gatherSome_eq fun i hi => mark?_eq hs (List.mem_range.1 hi)
  have huses := keep_eq (l := List.range s.size) fun i _ =>
    startsImport_eq hs (NameScope.typeBodies s) i
  have himports : gather (importsOf s)
      ((List.range s.size).filter (NameScope.startsImport s (NameScope.typeBodies s))) =
      .ok (((List.range s.size).filter
        (NameScope.startsImport s (NameScope.typeBodies s))).flatMap (Import.ofUse s)) :=
    gather_eq fun i hi => importsOf_eq hs (List.mem_range.1 (List.mem_filter.1 hi).1)
  rw [nameScope, typeBodies_eq hs, ok_bind, hmarks, ok_bind, huses, ok_bind, himports]
  rfl

end PhpLint.Checked

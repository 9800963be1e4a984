import PhpLint.Proofs.FunctionComment.Returns
import PhpLint.Proofs.LineEnds.FunctionComment

/-!
# Cursors go forward

Four loops walk over the tokens of a stream by a cursor: the names of an import statement, the names of a
list, the members of a body and the statements that return from one.  A loop is told by its iterations
(`CursorLoop`): where each one stands, what it finds, and where the loop goes on.

If every iteration goes on at a larger index, and none stands behind the last token, then the loop ends,
and with no more iterations than there are tokens (`Advances.ends`).  The four loops do, in every stream,
be its brackets paired or not (`loops_end`).  A jump over a body leads from its opener to the partner,
which is behind it whatever else the table holds.
-/

namespace PhpLint

/-- A loop over the tokens of a stream, by its iterations. -/
structure CursorLoop (σ α : Type) where
  /-- Where an iteration stands. -/
  index : σ → Nat
  /-- No iteration stands here or behind. -/
  stop : Nat
  /-- The first iteration, if there is one. -/
  start? : Option σ
  /-- The iteration that follows, if the loop goes on. -/
  next? : σ → Option σ
  /-- What an iteration adds to the result. -/
  found : σ → List α

namespace CursorLoop

variable {σ α : Type} {L : CursorLoop σ α} {c c' : σ} {o : Option σ} {cs : List σ}

/-- The loop makes the listed iterations, the first of them at `o`, and ends. -/
inductive Visits (L : CursorLoop σ α) : Option σ → List σ → Prop
  | done : Visits L none []
  | iteration {c : σ} {cs : List σ} (rest : Visits L (L.next? c) cs) : Visits L (some c) (c :: cs)

/-- Every iteration stands before the stop, and goes on behind where it stands. -/
structure Advances (L : CursorLoop σ α) : Prop where
  start (c : σ) : L.start? = some c → L.index c < L.stop
  next (c c' : σ) : L.next? c = some c' → L.index c' < L.stop
  forward (c c' : σ) : L.index c < L.stop → L.next? c = some c' → L.index c < L.index c'

/-- The loop goes forward, and after at most `n` iterations it ends with a result. -/
structure Ends (L : CursorLoop σ α) (n : Nat) (result : List α) : Prop where
  forward (c c' : σ) : L.index c < L.stop → L.next? c = some c' → L.index c < L.index c'
  visits : ∃ cs, L.Visits L.start? cs ∧ cs.length ≤ n ∧ result = cs.flatMap L.found

/-- From an iteration on there are no more iterations than indices up to the stop. -/
theorem Advances.exists_visits (h : L.Advances) (hc : L.index c < L.stop) :
    ∃ cs, L.Visits (some c) cs ∧ L.index c + cs.length ≤ L.stop := by
  induction hleft : L.stop - L.index c using Nat.strongRecOn generalizing c with
  | ind left ih =>
    subst hleft
    cases hnext : L.next? c with
    | none =>
      refine ⟨[c], .iteration ?_, hc⟩
      rw [hnext]
      exact .done
    | some c' =>
      have hlt := h.forward c c' hc hnext
      have hstop := h.next c c' hnext
      obtain ⟨cs, hcs, hlength⟩ := ih (L.stop - L.index c') (by omega) hstop rfl
      refine ⟨c :: cs, .iteration ?_, ?_⟩
      · rwa [hnext]
      · rw [List.length_cons]
        omega

/-- A function that takes what an iteration finds and goes on behind it has what all of them find. -/
theorem Advances.eq_flatMap (h : L.Advances) {f : σ → List α}
    (hf : ∀ c, L.index c < L.stop → f c = L.found c ++ (L.next? c).elim [] f)
    (hvisits : L.Visits o cs) (ho : ∀ c, o = some c → L.index c < L.stop) :
    o.elim [] f = cs.flatMap L.found := by
  induction hvisits with
  | done => rfl
  | @iteration c cs rest ih =>
    rw [List.flatMap_cons, ← ih (h.next c)]
    exact hf c (ho c rfl)

/-- A loop that advances ends. -/
theorem Advances.ends (h : L.Advances) {f : σ → List α} {n : Nat} (hn : L.stop ≤ n)
    (hf : ∀ c, L.index c < L.stop → f c = L.found c ++ (L.next? c).elim [] f) :
    L.Ends n (L.start?.elim [] f) := by
  refine ⟨h.forward, ?_⟩
  have hvisits : ∃ cs, L.Visits L.start? cs ∧ cs.length ≤ n := by
    cases hstart : L.start? with
    | none => exact ⟨[], .done, Nat.zero_le n⟩
    | some c =>
      obtain ⟨cs, hcs, hlength⟩ := h.exists_visits (h.start c hstart)
      exact ⟨cs, hcs, by omega⟩
  obtain ⟨cs, hcs, hlength⟩ := hvisits
  exact ⟨cs, hcs, hlength, h.eq_flatMap hf hcs h.start⟩

/-- An index before the stop. -/
def below (stop i : Nat) : Option Nat := if i < stop then some i else none

/-- An index is given exactly if it is before the stop, and then it is that index. -/
theorem below_eq_some_iff {stop i j : Nat} : below stop i = some j ↔ i = j ∧ j < stop := by
  unfold below
  split
  · next hlt =>
    rw [Option.some.injEq]
    constructor
    · rintro rfl
      exact ⟨rfl, hlt⟩
    · exact And.left
  · next hge =>
    constructor
    · intro h
      cases h
    · rintro ⟨rfl, hlt⟩
      exact absurd hlt hge

/-- A function that has nothing at the stop and behind it need not be asked there. -/
theorem elim_below {f : Nat → List α} {stop : Nat} (hf : ∀ i, ¬i < stop → f i = []) (i : Nat) :
    (below stop i).elim [] f = f i := by
  unfold below
  split
  · rfl
  · next hge => exact (hf i hge).symm

end CursorLoop

namespace TokenStream

open CursorLoop (below below_eq_some_iff elim_below)

variable {s : TokenStream} {scope : NameScope}

/-! ## The four loops -/

/-- The loop over the names of the `use` statement at an index. -/
def importLoop (s : TokenStream) (useIndex : Nat) : CursorLoop UseCursor Import where
  index := UseCursor.index
  stop := s.size
  start? := (s.nextSignificant useIndex).bind fun first =>
    if Import.isForeign (s.content first) then none else some ⟨first, []⟩
  next? c := (Import.step s useIndex c).2
  found c := (Import.step s useIndex c).1.toList

/-- The loop over the names that are listed after a keyword. -/
def nameLoop (s : TokenStream) (scope : NameScope) (keyword : Nat) : CursorLoop Nat Text where
  index := id
  stop := s.size
  start? := s.nextSignificant keyword
  next? i := (s.readName? i).bind fun (_, after) => Declaration.nextInList? s after
  found i := ((s.readName? i).map fun (name, _) => scope.qualify name keyword).toList

/-- The loop over the members of a body. -/
def memberLoop (s : TokenStream) (scope : NameScope) (opener closer : Nat) :
    CursorLoop Nat Declaration.Member where
  index := id
  stop := closer
  start? := below closer (opener + 1)
  next? i := below closer (Declaration.memberNext s closer i)
  found i := [Declaration.memberAt s scope i]

/-- The loop over the tokens between a keyword and the end of its body that leaves out the nested
bodies. -/
def returnLoop (s : TokenStream) (keyword closer : Nat) : CursorLoop Nat Nat where
  index := id
  stop := closer
  start? := below closer (keyword + 1)
  next? i := below closer ((FunctionComment.nestedEnd? s i).getD i + 1)
  found i :=
    if (FunctionComment.nestedEnd? s i).isNone && s.has i FunctionComment.isReturn then [i] else []

/-- Every iteration over an import statement reads a name, and goes on behind it. -/
theorem importLoop_advances (s : TokenStream) (useIndex : Nat) :
    (importLoop s useIndex).Advances where
  start c h := by
    obtain ⟨first, hfirst, hc⟩ := Option.bind_eq_some_iff.1 h
    split at hc
    · cases hc
    · obtain rfl := Option.some.inj hc
      exact (lt_of_nextSignificant hfirst).2
  next c c' h := (Import.lt_of_step h).2
  forward c c' _ h := (Import.lt_of_step h).1

/-- The loop over an import statement ends with its imports. -/
theorem importLoop_ends (s : TokenStream) (useIndex : Nat) :
    (importLoop s useIndex).Ends s.size (Import.ofUse s useIndex) := by
  have hf (c : UseCursor) : Import.fromCursor s useIndex c =
      (Import.step s useIndex c).1.toList ++
        (Import.step s useIndex c).2.elim [] (Import.fromCursor s useIndex) := by
    rw [Import.fromCursor]
    split
    · next hnext => rw [hnext, Option.elim_none, List.append_nil]
    · next next hnext => rw [hnext, Option.elim_some]
  have hresult : Import.ofUse s useIndex =
      (importLoop s useIndex).start?.elim [] (Import.fromCursor s useIndex) := by
    simp only [importLoop, Import.ofUse]
    split
    · next first hfirst =>
      rw [hfirst, Option.bind_some]
      split <;> rfl
    · next hfirst => rw [hfirst, Option.bind_none, Option.elim_none]
  rw [hresult]
  exact (importLoop_advances s useIndex).ends (Nat.le_refl s.size) fun c _ => hf c

/-- Every iteration over a list reads a name, and goes on behind the comma. -/
theorem nameLoop_advances (s : TokenStream) (scope : NameScope) (keyword : Nat) :
    (nameLoop s scope keyword).Advances := by
  have hnext {i j : Nat} (h : (nameLoop s scope keyword).next? i = some j) : i < j ∧ j < s.size := by
    obtain ⟨⟨name, after⟩, hname, hj⟩ := Option.bind_eq_some_iff.1 h
    have hafter := lt_of_readName? hname
    have hbehind := Declaration.lt_of_nextInList? hj
    exact ⟨Nat.lt_trans hafter hbehind.1, hbehind.2⟩
  exact
    { start := fun _ h => (lt_of_nextSignificant h).2
      next := fun _ _ h => (hnext h).2
      forward := fun _ _ _ h => (hnext h).1 }

/-- The loop over a list ends with its names. -/
theorem nameLoop_ends (s : TokenStream) (scope : NameScope) (keyword : Nat) :
    (nameLoop s scope keyword).Ends s.size (Declaration.namesAfter s scope keyword) := by
  let f (i : Nat) : List Text := (Declaration.namesFrom s i).map (scope.qualify · keyword)
  have hf (i : Nat) : f i = (nameLoop s scope keyword).found i ++
      ((nameLoop s scope keyword).next? i).elim [] f := by
    simp only [f, nameLoop]
    rw [Declaration.namesFrom]
    split
    · next hname => simp [hname]
    · next name after hname =>
      split
      · next hnext => simp [hname, hnext]
      · next next hnext => simp [hname, hnext]
  have hresult : Declaration.namesAfter s scope keyword =
      (nameLoop s scope keyword).start?.elim [] f := by
    simp only [nameLoop, Declaration.namesAfter]
    split
    · next start hstart => rw [hstart, Option.elim_some]
    · next hstart => rw [hstart, Option.elim_none]
  rw [hresult]
  exact (nameLoop_advances s scope keyword).ends (Nat.le_refl s.size) fun i _ => hf i

/-- Every iteration over a body goes on behind the member that it reads. -/
theorem memberLoop_advances (s : TokenStream) (scope : NameScope) (opener closer : Nat) :
    (memberLoop s scope opener closer).Advances where
  start i h := (below_eq_some_iff.1 h).2
  next i j h := (below_eq_some_iff.1 h).2
  forward i j hi h := by
    obtain ⟨rfl, -⟩ := below_eq_some_iff.1 h
    exact Declaration.lt_memberNext hi

/-- The loop over a body ends with its members, as long as the body ends in the stream. -/
theorem memberLoop_ends (scope : NameScope) {opener closer : Nat} (hcloser : closer ≤ s.size) :
    (memberLoop s scope opener closer).Ends s.size
      (Declaration.membersFrom s scope closer (opener + 1)) := by
  have hbehind (i : Nat) (hi : ¬i < closer) : Declaration.membersFrom s scope closer i = [] := by
    rw [Declaration.membersFrom, if_neg hi]
  have hf (i : Nat) (hi : i < closer) : Declaration.membersFrom s scope closer i =
      [Declaration.memberAt s scope i] ++ (below closer (Declaration.memberNext s closer i)).elim []
        (Declaration.membersFrom s scope closer) := by
    rw [elim_below hbehind, Declaration.membersFrom, if_pos hi, List.singleton_append]
  rw [← elim_below hbehind]
  exact (memberLoop_advances s scope opener closer).ends hcloser hf

/-- Every iteration goes on behind a token or behind a nested body. -/
theorem returnLoop_advances (s : TokenStream) (keyword closer : Nat) :
    (returnLoop s keyword closer).Advances where
  start i h := (below_eq_some_iff.1 h).2
  next i j h := (below_eq_some_iff.1 h).2
  forward i j _ h := by
    obtain ⟨rfl, -⟩ := below_eq_some_iff.1 h
    cases hnested : FunctionComment.nestedEnd? s i with
    | none => exact Nat.lt_succ_self i
    | some last =>
      have hlast := lt_of_bodyCloser? (FunctionComment.nestedEnd?_eq_some_iff.1 hnested).2
      exact Nat.lt_succ_of_lt hlast

/-- The loop that leaves out nested bodies ends with the statements that return, as long as the body
ends in the stream. -/
theorem returnLoop_ends {keyword closer : Nat} (hcloser : closer ≤ s.size) :
    (returnLoop s keyword closer).Ends s.size
      (FunctionComment.returnsFrom s closer (keyword + 1)) := by
  have hbehind (i : Nat) (hi : ¬i < closer) : FunctionComment.returnsFrom s closer i = [] :=
    FunctionComment.returnsFrom_of_not_lt hi
  have hf (i : Nat) (hi : i < closer) : FunctionComment.returnsFrom s closer i =
      (returnLoop s keyword closer).found i ++
        ((returnLoop s keyword closer).next? i).elim [] (FunctionComment.returnsFrom s closer) := by
    simp only [returnLoop]
    rw [elim_below hbehind]
    cases hnested : FunctionComment.nestedEnd? s i with
    | none => rw [FunctionComment.returnsFrom_of_plain hi hnested]; rfl
    | some last => rw [FunctionComment.returnsFrom_of_nested hi hnested]; rfl
  rw [← elim_below hbehind]
  exact (returnLoop_advances s keyword closer).ends hcloser hf

/-! ## The jumps -/

/-- Whatever a cursor jumps over, it does not go back, and does not stay where it was. -/
structure JumpsForward (s : TokenStream) : Prop where
  /-- To the end of a body. -/
  body (i j : Nat) : s.bodyCloser? i = some j → i < j
  /-- To the end of a method, be it the end of its body, a semicolon or the end of the type. -/
  method (closer i : Nat) :
    i < closer → Declaration.startsMethod s i = true → i < Declaration.memberEnd s closer i
  /-- Past the brace that opens a group. -/
  group (useIndex : Nat) (c c' : UseCursor) (name : Text) (after : Nat) :
    s.readName? c.index = some (name, after) → s.isAt after (.opens .curly) = true →
      (Import.step s useIndex c).2 = some c' → c.index < after ∧ after < c'.index
  /-- Past a comma, or past the brace that closes a group and the comma behind it. -/
  separator (group : Text) (after : Nat) (c : UseCursor) :
    Import.cursorAfter? s group after = some c → after < c.index
  /-- Past an alias, if there is one. -/
  shortName (target : Text) (after : Nat) :
    Import.aliasFrom s target after = (lastSegment target, after) ∨
      after < (Import.aliasFrom s target after).2

/-- A method ends behind its keyword, also where it has no body and no semicolon. -/
theorem lt_memberEnd {closer i : Nat} (hi : i < closer)
    (hmethod : Declaration.startsMethod s i = true) : i < Declaration.memberEnd s closer i := by
  rw [Declaration.memberEnd, if_pos hmethod]
  split
  · next last hbody => exact lt_of_bodyCloser? hbody
  · cases hfind : s.findNext (· == .semicolon) i with
    | none => exact hi
    | some j =>
      -- The keyword is no semicolon itself.
      obtain ⟨hle, hj, -⟩ := findNext_eq_some_iff.1 hfind
      have hne : i ≠ j := by
        rintro rfl
        rw [Declaration.startsMethod, Bool.and_eq_true] at hmethod
        rw [has_of_isAt hmethod.1] at hj
        cases hj
      exact Nat.lt_of_le_of_ne hle hne

/-- Without an alias nothing is jumped over, and with one something is. -/
theorem aliasFrom_eq_or_lt (s : TokenStream) (target : Text) (after : Nat) :
    Import.aliasFrom s target after = (lastSegment target, after) ∨
      after < (Import.aliasFrom s target after).2 := by
  simp only [Import.aliasFrom]
  split
  · next name hname =>
    right
    obtain ⟨word, hword, hbehind⟩ := Option.bind_eq_some_iff.1 hname
    have hle := (findNext_eq_some_iff.1 hword).1
    split at hbehind
    · exact Nat.lt_succ_of_lt (Nat.lt_of_le_of_lt hle (lt_of_nextSignificant hbehind).1)
    · cases hbehind
  · exact .inl rfl

/-- In every stream the jumps lead forward. -/
theorem jumpsForward (s : TokenStream) : s.JumpsForward where
  body i j h := lt_of_bodyCloser? h
  method closer i hi hmethod := lt_memberEnd hi hmethod
  group useIndex c c' name after hname hbrace h := by
    simp only [Import.step, hname, hbrace, if_true] at h
    obtain ⟨i, hi, rfl⟩ := Option.map_eq_some_iff.1 h
    exact ⟨lt_of_readName? hname, (lt_of_nextSignificant hi).1⟩
  separator group after c h := (Import.lt_of_cursorAfter? h).1
  shortName target after := aliasFrom_eq_or_lt s target after

/-- **Every cursor goes forward.**  In every stream of tokens each of the four loops goes on, if at all, at
a larger index, and ends after no more iterations than there are tokens, with the result of the function
that it stands for; none of the jumps goes back or stands still. -/
theorem loops_end (s : TokenStream) :
    (∀ useIndex, (importLoop s useIndex).Ends s.size (Import.ofUse s useIndex)) ∧
    (∀ scope keyword,
      (nameLoop s scope keyword).Ends s.size (Declaration.namesAfter s scope keyword)) ∧
    (∀ scope keyword opener closer, s.body? keyword = some (opener, closer) →
      (memberLoop s scope opener closer).Ends s.size
        (Declaration.membersFrom s scope closer (opener + 1))) ∧
    (∀ keyword closer, s.bodyCloser? keyword = some closer →
      (returnLoop s keyword closer).Ends s.size
        (FunctionComment.returnsFrom s closer (keyword + 1))) ∧
    s.JumpsForward := by
  refine ⟨importLoop_ends s, nameLoop_ends s, fun scope keyword opener closer h => ?_,
    fun keyword closer h => ?_, jumpsForward s⟩
  · obtain ⟨-, -, -, -, hcloser⟩ := body?_eq_some_iff.1 h
    exact memberLoop_ends scope (Nat.le_of_lt (lt_size_of_partner? hcloser).2)
  · obtain ⟨opener, -, hcloser⟩ := Option.bind_eq_some_iff.1 h
    exact returnLoop_ends (Nat.le_of_lt (lt_size_of_partner? hcloser).2)

/-- A class whose method has no parameters, and whose list of traits breaks off. -/
def brokenClass : TokenStream :=
  .ofList
    [⟨.keyword .kwClass, "class".toList, 1, 1, 0⟩, ⟨.identifier, "C".toList, 1, 6, 5⟩,
     ⟨.opens .curly, ['{'], 1, 7, 6⟩, ⟨.keyword .kwFunction, "function".toList, 1, 8, 7⟩,
     ⟨.identifier, "f".toList, 1, 16, 15⟩, ⟨.closes .round, [')'], 1, 17, 16⟩,
     ⟨.semicolon, [';'], 1, 18, 17⟩, ⟨.keyword .kwUse, "use".toList, 1, 19, 18⟩,
     ⟨.identifier, "T".toList, 1, 22, 21⟩, ⟨.comma, [','], 1, 23, 22⟩,
     ⟨.closes .curly, ['}'], 1, 24, 23⟩]

/-- The method is jumped over up to its semicolon, and the list of traits ends at the comma. -/
theorem loops_end_broken :
    brokenClass.body? 0 = some (2, 10) ∧
      (memberLoop brokenClass ⟨[], []⟩ 2 10).Ends 11
        [.method "f".toList, .traits ["T".toList], .other, .other] := by
  have hbody : brokenClass.body? 0 = some (2, 10) := by decide +kernel
  have hmembers : Declaration.membersFrom brokenClass ⟨[], []⟩ 10 3 =
      [.method "f".toList, .traits ["T".toList], .other, .other] := by decide +kernel
  obtain ⟨-, -, hends, -⟩ := loops_end brokenClass
  have h := hends ⟨[], []⟩ 0 2 10 hbody
  rw [hmembers] at h
  exact ⟨hbody, h⟩

end TokenStream

end PhpLint

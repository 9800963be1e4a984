import Mathlib.Data.List.Induction
import PhpLint.Proofs.Checked.NameScope
import PhpLint.Symbol.Table

/-!
# The symbol table with checked accesses

The lists in a declaration's header and the members of its body are read by cursors that go on at what
they find.  Like the cursor of an import statement, each of them stops with `stuck` if it does not get
on.  The header is read as it stands, one keyword after another, each list in the place of the one
before it: `header_eq` says that the last list of each sort remains.

The main results are `table_eq` for the table of several files, and `typeAt?_eq` for the type around an
index, which looks at every index below and so may not start beyond the end.
-/

namespace PhpLint.Checked

open TokenStream (Fits)
open Declaration (sortOf? Member)

variable {s : TokenStream} {scope : NameScope} {closer i j : Nat}

/-! ## Lists of names -/

/-- Where a list of names goes on after a name that ends before index `after`. -/
def nextInList? (s : TokenStream) (after : Nat) : Checked (Option Nat) :=
  andThen (findNext s Kind.isSignificant after) fun separator => do
    if ← look s separator (·.isAt · .comma) then nextSignificant s separator else return none

/-- The names of a list from index `start` on, separated by commas. -/
def namesFrom (s : TokenStream) (start : Nat) : Checked (List Text) := do
  match ← readName? s start with
  | none => return []
  | some (name, after) =>
    match ← nextInList? s after with
    | none => return [name]
    | some next =>
      if _h : start < next ∧ next < s.size then return name :: (← namesFrom s next)
      else .error .stuck
termination_by s.size - start

/-- The full names listed after the keyword at an index. -/
def namesAfter (s : TokenStream) (scope : NameScope) (keyword : Nat) : Checked (List Text) := do
  match ← nextSignificant s keyword with
  | some start => return (← namesFrom s start).map (scope.qualify · keyword)
  | none => return []

/-- Where a list goes on is found from every index. -/
theorem nextInList?_eq (hs : s.Fits) (i : Nat) :
    nextInList? s i = .ok (Declaration.nextInList? s i) := by
  have hsize := hs.size
  refine andThen_eq (findNext_eq s _ _) fun separator hseparator => ?_
  have hlt := lt_size_of_findNext hseparator
  rw [look_eq hlt, ok_bind]
  split
  · exact nextSignificant_eq (by omega)
  · rfl

/-- The names of a list are read, and the loop that reads them goes forward with every name. -/
theorem namesFrom_eq (hs : s.Fits) (i : Nat) :
    namesFrom s i = .ok (Declaration.namesFrom s i) := by
  fun_induction Declaration.namesFrom s i with
  | case1 start hname =>
    rw [namesFrom, readName?_eq hs, hname]
    rfl
  | case2 start name after hname hnext =>
    rw [namesFrom, readName?_eq hs, hname]
    simp only [ok_bind, nextInList?_eq hs, hnext, pure_eq]
  | case3 start name after hname next hnext ih =>
    have hstart := TokenStream.lt_of_readName? hname
    have hlt := Declaration.lt_of_nextInList? hnext
    have hforward : start < next ∧ next < s.size := by omega
    rw [namesFrom, readName?_eq hs, hname]
    simp only [ok_bind, nextInList?_eq hs, hnext, dif_pos hforward, ih, pure_eq]

/-- The names behind a keyword of the stream are read. -/
theorem namesAfter_eq (hs : s.Fits) (scope : NameScope) (hi : i < s.size) :
    namesAfter s scope i = .ok (Declaration.namesAfter s scope i) := by
  have hsize := hs.size
  rw [namesAfter, nextSignificant_eq (by omega), ok_bind, Declaration.namesAfter]
  cases s.nextSignificant i with
  | none => rfl
  | some start =>
    dsimp only
    rw [namesFrom_eq hs]
    rfl

/-! ## Headers -/

/-- The lists of a header that have been read. -/
structure Header where
  parents : List Text
  interfaces : List Text

/-- The header after one more of its tokens. -/
def Header.extend (s : TokenStream) (scope : NameScope) (isInterface : Bool) (header : Header)
    (i : Nat) : Checked Header := do
  if ← look s i (·.isAt · (.keyword .kwExtends)) then
    let names ← namesAfter s scope i
    return if isInterface then { header with interfaces := names }
      else { header with parents := names }
  else if ← look s i (·.isAt · (.keyword .kwImplements)) then
    return { header with interfaces := ← namesAfter s scope i }
  else return header

/-- The header of a declaration, which goes from its keyword to its brace. -/
def header (s : TokenStream) (scope : NameScope) (isInterface : Bool) (start stop : Nat) :
    Checked Header :=
  (List.range' start (stop - start)).foldlM (Header.extend s scope isInterface) ⟨[], []⟩

/-- The names listed after the last keyword of a sort among some indices. -/
def listedAmong (s : TokenStream) (scope : NameScope) (p : Kind → Bool) (indices : List Nat) :
    List Text :=
  match indices.reverse.find? (s.has · p) with
  | some keyword => Declaration.namesAfter s scope keyword
  | none => []

/-- The last keyword of a sort decides. -/
theorem listedAmong_append (p : Kind → Bool) (indices : List Nat) (i : Nat) :
    listedAmong s scope p (indices ++ [i]) =
      if s.has i p then Declaration.namesAfter s scope i else listedAmong s scope p indices := by
  rw [listedAmong, List.reverse_append, List.reverse_singleton, List.singleton_append,
    List.find?_cons]
  cases hp : s.has i p with
  | true => rfl
  | false => rfl

/-- What a header says is what its last lists say. -/
theorem header_eq (hs : s.Fits) (isInterface : Bool) {start stop : Nat} (hstop : stop ≤ s.size) :
    header s scope isInterface start stop = .ok
      { parents :=
          if isInterface then []
          else Declaration.listedIn s scope (· == .keyword .kwExtends) start stop
        interfaces :=
          Declaration.listedIn s scope
            (fun k => k == .keyword .kwImplements || isInterface && k == .keyword .kwExtends)
            start stop } := by
  let isExtends (k : Kind) := k == .keyword .kwExtends
  let isListed (k : Kind) := k == .keyword .kwImplements || isInterface && isExtends k
  have hfold (indices : List Nat) (hindices : ∀ i ∈ indices, i < s.size) :
      indices.foldlM (Header.extend s scope isInterface) ⟨[], []⟩ = .ok
        { parents := if isInterface then [] else listedAmong s scope isExtends indices
          interfaces := listedAmong s scope isListed indices } := by
    induction indices using List.reverseRecOn with
    | nil => cases isInterface <;> rfl
    | append_singleton indices i ih =>
      have hi : i < s.size := hindices i (by simp)
      have hbefore := ih fun j hj => hindices j (List.mem_append_left _ hj)
      obtain ⟨k, hk⟩ := TokenStream.exists_kind? hi
      have hat (k' : Kind) : s.isAt i k' = (k == k') := by simp [TokenStream.isAt, hk]
      have hhas (p : Kind → Bool) : s.has i p = p k := by simp [TokenStream.has, hk]
      rw [List.foldlM_append, hbefore, ok_bind, List.foldlM_cons, Header.extend, look_eq hi,
        ok_bind, look_eq hi, ok_bind, namesAfter_eq hs scope hi, listedAmong_append,
        listedAmong_append, hhas, hhas, hat, hat]
      by_cases hextends : k = .keyword .kwExtends
      · subst hextends
        cases isInterface <;> rfl
      · have hparents : (k == .keyword .kwExtends) = false := beq_eq_false_iff_ne.2 hextends
        simp only [isExtends, isListed, hparents, Bool.and_false, Bool.or_false]
        cases k == .keyword .kwImplements <;> rfl
  refine hfold _ fun i hi => ?_
  rw [List.mem_range'_1] at hi
  omega

/-! ## Members -/

/-- The keyword at the index starts a function with a name. -/
def startsMethod (s : TokenStream) (i : Nat) : Checked Bool :=
  look s i (·.isAt · (.keyword .kwFunction)) <&&> ((!·) <$> isClosure s i)

/-- The member of a type that starts at an index of its body. -/
def memberAt (s : TokenStream) (scope : NameScope) (i : Nat) : Checked Member := do
  if ← startsMethod s i then
    match ← declaredName? s i with
    | some name => return .method name
    | none => return .other
  else if ← look s i (·.isAt · (.keyword .kwUse)) then
    return .traits (← namesAfter s scope i)
  else return .other

/-- The last index of the member at an index: the end of a method's body, or of its declaration. -/
def memberEnd (s : TokenStream) (closer i : Nat) : Checked Nat := do
  if ← startsMethod s i then
    match ← bodyCloser? s i with
    | some bodyEnd => return bodyEnd
    | none => return (← findNext s (· == .semicolon) i).getD closer
  else return i

/-- The members of a body from index `i` to its closing brace. -/
def membersFrom (s : TokenStream) (scope : NameScope) (closer i : Nat) :
    Checked (List Member) := do
  if _h : i < closer then
    let member ← memberAt s scope i
    let next ← plus (← memberEnd s closer i) 1
    if _h : i < next then return member :: (← membersFrom s scope closer next)
    else .error .stuck
  else return []
termination_by closer - i

/-- A token of the stream is known to start a method or not. -/
theorem startsMethod_eq (hs : s.Fits) (hi : i < s.size) :
    startsMethod s i = .ok (Declaration.startsMethod s i) :=
  and_eq (look_eq hi _) fun _ => map_eq (isClosure_eq hs hi) _

/-- The member at a token of the stream is read. -/
theorem memberAt_eq (hs : s.Fits) (scope : NameScope) (hi : i < s.size) :
    memberAt s scope i = .ok (Declaration.memberAt s scope i) := by
  have hsize := hs.size
  rw [memberAt, startsMethod_eq hs hi, ok_bind, Declaration.memberAt]
  split
  · rw [declaredName?_eq hs (by omega), ok_bind]
    cases s.declaredName? i <;> rfl
  · rw [look_eq hi, ok_bind, namesAfter_eq hs scope hi]
    split <;> rfl

/-- The end of a member at a token of the stream is found. -/
theorem memberEnd_eq (hs : s.Fits) (closer : Nat) (hi : i < s.size) :
    memberEnd s closer i = .ok (Declaration.memberEnd s closer i) := by
  rw [memberEnd, startsMethod_eq hs hi, ok_bind, Declaration.memberEnd]
  split
  · rw [bodyCloser?_eq hs hi, ok_bind, findNext_eq]
    cases s.bodyCloser? i <;> rfl
  · rfl

theorem lt_size_of_bodyCloser? (h : s.bodyCloser? i = some j) : j < s.size := by
  obtain ⟨opener, -, hpartner⟩ := Option.bind_eq_some_iff.1 h
  exact lt_size_of_partner? hpartner

/-- A member of a body that lies in the stream ends in the stream. -/
theorem memberEnd_lt_size (hcloser : closer < s.size) (hi : i < s.size) :
    Declaration.memberEnd s closer i < s.size := by
  unfold Declaration.memberEnd
  split
  · split
    · next hbody => exact lt_size_of_bodyCloser? hbody
    · cases hfound : s.findNext (· == .semicolon) i with
      | none => exact hcloser
      | some semicolon => exact lt_size_of_findNext hfound
  · exact hi

/-- The members of a body that lies in the stream are read, and the cursor goes forward with every
member. -/
theorem membersFrom_eq (hs : s.Fits) (scope : NameScope) (hcloser : closer < s.size) (i : Nat) :
    membersFrom s scope closer i = .ok (Declaration.membersFrom s scope closer i) := by
  have hsize := hs.size
  fun_induction Declaration.membersFrom s scope closer i with
  | case1 i hi ih =>
    have hlt : i < s.size := Nat.lt_trans hi hcloser
    have hend := memberEnd_lt_size hcloser hlt
    have hforward := Declaration.lt_memberNext (s := s) hi
    rw [membersFrom, dif_pos hi, memberAt_eq hs scope hlt, ok_bind, memberEnd_eq hs closer hlt,
      ok_bind, plus_eq (by omega), ok_bind]
    rw [Declaration.memberNext] at hforward ih
    rw [dif_pos hforward, ih]
    rfl
  | case2 i hi =>
    rw [membersFrom, dif_neg hi]
    rfl

/-! ## Declarations -/

/-- Both braces of the body of the declaration at an index. -/
def braces? (s : TokenStream) (i : Nat) : Checked (Option (Nat × Nat)) :=
  andThen (bodyOpener? s i) fun opener => return (s.partner? opener).map (opener, ·)

/-- The type that the keyword at an index declares. -/
def read? (s : TokenStream) (scope : NameScope) (i : Nat) : Checked (Option TypeSymbol) :=
  andThen (look s i fun s i => (s.kind? i).bind sortOf?) fun sort =>
  andThen (declaredName? s i) fun shortName =>
  andThen (braces? s i) fun (opener, closer) => do
    let header ← header s scope (sort = .interfaceType) i opener
    let members ← membersFrom s scope closer (← plus opener 1)
    return some {
      name := scope.qualify shortName i
      sort
      parents := header.parents
      interfaces := header.interfaces
      traits := members.flatMap Member.traitNames
      methods := members.filterMap Member.method?
    }

/-- The types that a file declares, in the order of their keywords. -/
def fileTypes (s : TokenStream) : Checked (List TypeSymbol) := do
  let scope ← nameScope s
  gatherSome (read? s scope) (← keep (isTypeDeclaration s) (List.range s.size))

/-- The table of several files. -/
def table (streams : List TokenStream) : Checked SymbolTable :=
  streams.foldlM (fun t s => return ⟨t.symbols ++ (← fileTypes s)⟩) .empty

/-- The braces of a body are found from a keyword of the stream, the second one from the first. -/
theorem braces?_eq (hs : s.Fits) (hi : i < s.size) : braces? s i = .ok (s.body? i) := by
  have hbody : s.body? i =
      (s.bodyOpener? i).bind fun opener => (s.partner? opener).map (opener, ·) := by
    unfold TokenStream.body?
    cases s.bodyOpener? i with
    | none => rfl
    | some opener => cases hpartner : s.partner? opener <;> simp [hpartner]
  rw [hbody]
  exact andThen_eq (bodyOpener?_eq hs hi) fun opener _ => rfl

/-- Both braces of a body are tokens of the stream. -/
theorem lt_size_of_body? {opener : Nat} (h : s.body? i = some (opener, closer)) :
    opener < s.size ∧ closer < s.size := by
  obtain ⟨start, -, hfound, -, hpartner⟩ := TokenStream.body?_eq_some_iff.1 h
  exact ⟨lt_size_of_findNext hfound, lt_size_of_partner? hpartner⟩

/-- A declaration is read from a keyword of the stream. -/
theorem read?_eq (hs : s.Fits) (scope : NameScope) (hi : i < s.size) :
    read? s scope i = .ok (Declaration.read? s scope i) := by
  have hsize := hs.size
  refine andThen_eq (look_eq hi _) fun sort _ => ?_
  refine andThen_eq (declaredName?_eq hs (by omega)) fun shortName _ => ?_
  refine andThen_eq (braces?_eq hs hi) fun body hbody => ?_
  obtain ⟨opener, closer⟩ := body
  obtain ⟨hopener, hcloser⟩ := lt_size_of_body? hbody
  dsimp only
  rw [header_eq hs _ (Nat.le_of_lt hopener), ok_bind, plus_eq (by omega), ok_bind,
    membersFrom_eq hs scope hcloser]
  simp only [ok_bind, decide_eq_true_eq, pure_eq]

/-- The declarations of a file are read. -/
theorem fileTypes_eq (hs : s.Fits) : fileTypes s = .ok (Declaration.ofStream s) := by
  have hkeywords : keep (isTypeDeclaration s) (List.range s.size) =
      .ok ((List.range s.size).filter s.isTypeDeclaration) :=
    keep_eq fun i hi => isTypeDeclaration_eq hs (List.mem_range.1 hi)
  rw [fileTypes, nameScope_eq hs, ok_bind, hkeywords, ok_bind]
  exact gatherSome_eq fun i hi =>
    read?_eq hs _ (List.mem_range.1 (List.mem_filter.1 hi).1)

/-- **The table of several files is built without an access out of range.** -/
theorem table_eq {streams : List TokenStream} (hstreams : ∀ s ∈ streams, s.Fits) :
    table streams = .ok (SymbolTable.ofStreams streams) := by
  have hfold (t : SymbolTable) :
      streams.foldlM (fun (t : SymbolTable) s => do return ⟨t.symbols ++ (← fileTypes s)⟩) t =
        (.ok (streams.foldl SymbolTable.addFile t) : Checked SymbolTable) := by
    induction streams generalizing t with
    | nil => rfl
    | cons s streams ih =>
      have hfile := fileTypes_eq (hstreams s List.mem_cons_self)
      have hrest := ih fun s' hs' => hstreams s' (List.mem_cons_of_mem s hs')
      rw [List.foldlM_cons, hfile, ok_bind]
      exact hrest _
  exact hfold .empty

/-! ## The type around an index -/

/-- The last keyword among the first `n` tokens whose type has the index in its body. -/
def keywordBelow? (s : TokenStream) (i : Nat) : (n : Nat) → Checked (Option Nat)
  | 0 => return none
  | n + 1 => do
    if ← (isTypeDeclaration s n <&&> (Option.any (TokenStream.inside i) <$> body? s n)) then
      return some n
    keywordBelow? s i n

/-- The innermost named type whose body holds an index. -/
def typeAt? (t : SymbolTable) (s : TokenStream) (i : Nat) : Checked (Option TypeSymbol) :=
  andThen (keywordBelow? s i i) fun keyword => do
    let scope ← nameScope s
    andThen (declaredName? s keyword) fun shortName =>
      return t.get? (scope.qualify shortName keyword)

/-- The last keyword with the index in its body is found, as long as only tokens of the stream are
looked at. -/
theorem keywordBelow?_eq (hs : s.Fits) (i : Nat) {n : Nat} (hn : n ≤ s.size) :
    keywordBelow? s i n = .ok ((List.range n).reverse.find? fun k =>
      s.isTypeDeclaration k && (s.body? k).any (TokenStream.inside i)) := by
  induction n with
  | zero => rfl
  | succ n ih =>
    have hbody := map_eq (body?_eq hs hn) (Option.any (TokenStream.inside i))
    rw [keywordBelow?, and_eq (isTypeDeclaration_eq hs hn) fun _ => hbody, ok_bind,
      ih (Nat.le_of_succ_le hn), List.range_succ, List.reverse_append, List.reverse_singleton,
      List.singleton_append, List.find?_cons]
    cases s.isTypeDeclaration n && (s.body? n).any (TokenStream.inside i) <;> rfl

/-- **The type around an index is found without an access out of range**, as long as the index is at
most the one past the last token. -/
theorem typeAt?_eq (hs : s.Fits) (t : SymbolTable) (hi : i ≤ s.size) :
    typeAt? t s i = .ok (t.typeAt? s i) := by
  have hsize := hs.size
  refine andThen_eq (keywordBelow?_eq hs i hi) fun keyword hkeyword => ?_
  have hlt : keyword < i := List.mem_range.1 (List.mem_reverse.1 (List.mem_of_find?_eq_some hkeyword))
  rw [nameScope_eq hs, ok_bind]
  exact andThen_eq (declaredName?_eq hs (by omega)) fun shortName _ => rfl

end PhpLint.Checked

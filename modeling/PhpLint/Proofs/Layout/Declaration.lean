import PhpLint.Proofs.Layout.Names
import PhpLint.Symbol.Table

/-!
# Declarations in streams of one code

A cursor that goes through the tokens of a body stands at equal levels in both streams, step after step
(`TokenStream.Level.induct`): what is not significant it passes over, and at tokens that match it does the
same.  So both streams declare the same types, and the same type stands around tokens that match.
-/

namespace PhpLint

open TokenStream (Matches Level Told)

variable {s s' : TokenStream} {i i' : Nat}

/-- Induction over the stretches up to tokens that match, from equal levels on. -/
theorem TokenStream.Level.induct {closer closer' : Nat} {P : Nat → Nat → Prop}
    (hcloser : Matches s s' closer closer')
    (skip : ∀ i i', i < closer → s.has i Kind.isSignificant = false → P (i + 1) i' → P i i')
    (skip' : ∀ i i', i' < closer' → s'.has i' Kind.isSignificant = false → P i (i' + 1) → P i i')
    (step : ∀ i i', i < closer → i' < closer' → Matches s s' i i' →
      (∀ j j', i < j → Level s s' j j' → P j j') → P i i')
    (past : ∀ i i', ¬i < closer → ¬i' < closer' → P i i') (h : Level s s' i i') : P i i' := by
  induction hn : closer - i + (closer' - i') using Nat.strongRecOn generalizing i i' with
  | ind n ih =>
    -- What stands at an index before the closer is passed over, or it stands in both streams.
    by_cases hskip : i < closer ∧ s.has i Kind.isSignificant = false
    · exact skip i i' hskip.1 hskip.2 (ih _ (by omega) (h.skip hskip.2) rfl)
    by_cases hskip' : i' < closer' ∧ s'.has i' Kind.isSignificant = false
    · exact skip' i i' hskip'.1 hskip'.2 (ih _ (by omega) (h.symm.skip hskip'.2).symm rfl)
    have hcode (hi : i < closer) : s.has i Kind.isSignificant = true := by
      by_contra hnot
      exact hskip ⟨hi, eq_false_of_ne_true hnot⟩
    have hcode' (hi' : i' < closer') : s'.has i' Kind.isSignificant = true := by
      by_contra hnot
      exact hskip' ⟨hi', eq_false_of_ne_true hnot⟩
    have hlt : i < closer ↔ i' < closer' := by
      constructor
      · intro hi
        rcases Nat.lt_or_eq_of_le ((hcloser.level_le_iff h).2 (Nat.le_of_lt hi)) with hlt | rfl
        · exact hlt
        · have hmatch : Matches s s' i i' := ⟨hcode hi, hcloser.right, h⟩
          exact (hmatch.lt_iff hcloser).2 hi
      · intro hi'
        rcases Nat.lt_or_eq_of_le ((hcloser.level_le_iff h).1 (Nat.le_of_lt hi')) with hlt | rfl
        · exact hlt
        · have hmatch : Matches s s' i i' := ⟨hcloser.left, hcode' hi', h⟩
          exact (hmatch.lt_iff hcloser).1 hi'
    by_cases hi : i < closer
    · have hi' := hlt.1 hi
      have hmatch : Matches s s' i i' := ⟨hcode hi, hcode' hi', h⟩
      refine step i i' hi hi' hmatch fun j j' hij hj => ih _ ?_ hj rfl
      have hij' := (hmatch.lt_level_iff hj).2 hij
      omega
    · exact past i i' hi fun hi' => hi (hlt.2 hi')

namespace Declaration

variable {scope scope' : NameScope}

section SameCode

variable (hcode : s'.code = s.code)
include hcode

/-! ## Lists of names -/

/-- The next name of a list from equal levels on stands at tokens that match. -/
theorem nextInList?_level {after after' : Nat} (h : Level s s' after after') :
    Option.Rel (Matches s s') (nextInList? s after) (nextInList? s' after') := by
  refine Option.rel_bind (h.findNext hcode fun _ hk => hk) fun separator separator' hseparator => ?_
  rw [hseparator.isAt hcode]
  split
  · exact hseparator.nextSignificant hcode
  · exact .none

/-- The names of a list are the same from tokens that match on. -/
theorem namesFrom_matches (hnames : s.SameNames s') {start start' : Nat}
    (h : Matches s s' start start') : namesFrom s' start' = namesFrom s start := by
  induction hn : s.size - start using Nat.strongRecOn generalizing start start' with
  | ind n ih =>
    have hread := hnames.name start start' h
    rw [namesFrom_eq, namesFrom_eq s]
    generalize hname : s.readName? start = read, s'.readName? start' = read' at hread ⊢
    cases hread with
    | none => rfl
    | @some r r' hread =>
      have hnext := nextInList?_level hcode hread.2
      dsimp only
      rw [hread.1]
      generalize hgo : nextInList? s r.2 = next?, nextInList? s' r'.2 = next?' at hnext ⊢
      cases hnext with
      | none => rfl
      | @some next next' hnext =>
        have hafter := TokenStream.lt_of_readName? hname
        have hgo := lt_of_nextInList? hgo
        exact congrArg (r.1 :: ·) (ih _ (by omega) hnext rfl)

/-- In full, the names behind keywords that match are the same. -/
theorem namesAfter_matches (hnames : s.SameNames s') (hscope : scope.Same s s' scope')
    (hzero : Matches s s' 0 0) (h : Matches s s' i i') :
    namesAfter s' scope' i' = namesAfter s scope i := by
  unfold namesAfter
  have hstart := h.nextSignificant hcode
  generalize s.nextSignificant i = start?, s'.nextSignificant i' = start?' at hstart ⊢
  cases hstart with
  | none => rfl
  | some hstart =>
    dsimp only
    rw [namesFrom_matches hcode hnames hstart]
    exact List.map_congr_left fun name _ => NameScope.qualify_matches hscope hzero h name

/-- The names listed after the last keyword of a sort between equal levels. -/
theorem listedIn_matches (hnames : s.SameNames s') (hscope : scope.Same s s' scope')
    (hzero : Matches s s' 0 0) {p : Kind → Bool} (hp : ∀ k, p k = true → k.isSignificant = true)
    {start start' stop stop' : Nat} (hstart : Level s s' start start')
    (hstop : Level s s' stop stop') :
    listedIn s' scope' p start' stop' = listedIn s scope p start stop := by
  unfold listedIn
  have hkeyword := (TokenStream.told_has hcode hp).rel_find?_reverse hcode hstart hstop
  generalize (List.range' start (stop - start)).reverse.find? (s.has · p) = keyword?,
    (List.range' start' (stop' - start')).reverse.find? (s'.has · p) = keyword?' at hkeyword ⊢
  cases hkeyword with
  | none => rfl
  | some hkeyword => exact namesAfter_matches hcode hnames hscope hzero hkeyword

/-! ## The cursor of a body -/

/-- A method starts at the one token as at the other. -/
theorem startsMethod_matches (h : Matches s s' i i') : startsMethod s' i' = startsMethod s i := by
  rw [startsMethod, startsMethod, h.isAt hcode, h.isClosure hcode]

/-- Members at tokens that match say the same. -/
theorem memberAt_matches (hnames : s.SameNames s') (hscope : scope.Same s s' scope')
    (hzero : Matches s s' 0 0) (h : Matches s s' i i') :
    memberAt s' scope' i' = memberAt s scope i := by
  rw [memberAt, memberAt, startsMethod_matches hcode h, h.declaredName? hcode, h.isAt hcode,
    namesAfter_matches hcode hnames hscope hzero h]

end SameCode

/-- What is not significant is no member, and the cursor goes on behind it. -/
theorem membersFrom_of_trivia (hi : s.has i Kind.isSignificant = false) {closer : Nat}
    (hlt : i < closer) :
    membersFrom s scope closer i = .other :: membersFrom s scope closer (i + 1) := by
  have hmethod : startsMethod s i = false := by
    rw [startsMethod, TokenStream.not_isAt_keyword hi, Bool.false_and]
  rw [membersFrom_of_lt hlt, memberAt, hmethod, TokenStream.not_isAt_keyword hi,
    if_neg Bool.false_ne_true, if_neg Bool.false_ne_true, memberNext, memberEnd, hmethod,
    if_neg Bool.false_ne_true]

section Sources

variable {source source' : Text} (hs : TokenStream.ofSource source = .ok s)
  (hs' : TokenStream.ofSource source' = .ok s') (hcode : s'.code = s.code)
include hs hs' hcode

/-- Members end at tokens that match. -/
theorem memberEnd_matches {closer closer' : Nat} (hcloser : Matches s s' closer closer')
    (h : Matches s s' i i') : Matches s s' (memberEnd s closer i) (memberEnd s' closer' i') := by
  unfold memberEnd
  rw [startsMethod_matches hcode h]
  split
  · have hbody := h.bodyCloser? hs hs' hcode
    generalize s.bodyCloser? i = bodyEnd?, s'.bodyCloser? i' = bodyEnd?' at hbody ⊢
    cases hbody with
    | some hbodyEnd => exact hbodyEnd
    | none =>
      have hlevel : Level s s' i i' := h.ordinal
      have hsemicolon := hlevel.findNext hcode (p := (· == .semicolon))
        fun k hk => by rw [beq_iff_eq.1 hk]; rfl
      dsimp only
      generalize s.findNext (· == .semicolon) i = found?, s'.findNext (· == .semicolon) i' = found?'
        at hsemicolon ⊢
      cases hsemicolon with
      | some hfound => exact hfound
      | none => exact hcloser
  · exact h

/-- What is read off the members of a body, when nothing is read off what is no member. -/
theorem membersFrom_level (hnames : s.SameNames s') (hscope : scope.Same s s' scope') {α : Type}
    {f : Member → List α} (hother : f .other = []) {closer closer' : Nat}
    (hcloser : Matches s s' closer closer') (h : Level s s' i i') :
    (membersFrom s' scope' closer' i').flatMap f = (membersFrom s scope closer i).flatMap f := by
  refine TokenStream.Level.induct (P := fun i i' => (membersFrom s' scope' closer' i').flatMap f =
    (membersFrom s scope closer i).flatMap f) hcloser ?skip ?skip' ?step ?past h
  case skip =>
    intro i i' hlt hi ih
    rw [ih, membersFrom_of_trivia hi hlt, List.flatMap_cons, hother, List.nil_append]
  case skip' =>
    intro i i' hlt hi ih
    rw [← ih, membersFrom_of_trivia hi hlt, List.flatMap_cons, hother, List.nil_append]
  case step =>
    intro i i' hlt hlt' hmatch ih
    rw [membersFrom_of_lt hlt, membersFrom_of_lt hlt', List.flatMap_cons, List.flatMap_cons,
      memberAt_matches hcode hnames hscope (hmatch.zero hs hs') hmatch]
    exact congrArg _ (ih _ _ (lt_memberNext hlt)
      (memberEnd_matches hs hs' hcode hcloser hmatch).level_succ)
  case past =>
    intro i i' hge hge'
    rw [membersFrom_of_not_lt hge, membersFrom_of_not_lt hge']

/-! ## Types -/

/-- The keyword at tokens that match declares one type in both streams. -/
theorem read?_matches (hnames : s.SameNames s') (hscope : scope.Same s s' scope')
    (h : Matches s s' i i') : read? s' scope' i' = read? s scope i := by
  have hzero := h.zero hs hs'
  have hbody := h.body? hs hs' hcode
  unfold read?
  rw [h.kind? hcode, h.declaredName? hcode]
  cases (s.kind? i).bind sortOf? with
  | none => rfl
  | some sort =>
    cases s.declaredName? i with
    | none => rfl
    | some shortName =>
      generalize s.body? i = body?, s'.body? i' = body?' at hbody ⊢
      cases hbody with
      | none => rfl
      | @some body body' hbody =>
        obtain ⟨hopener, hcloser⟩ := hbody
        have hmembers {α : Type} {f : Member → List α} (hother : f .other = []) :=
          membersFrom_level hs hs' hcode hnames hscope hother hcloser hopener.level_succ
        have hkeyword {k : Kind} {w : Keyword} (hk : (k == .keyword w) = true) :
            k.isSignificant = true := by
          rw [beq_iff_eq.1 hk]
          rfl
        have hextends : listedIn s' scope' (· == .keyword .kwExtends) i' body'.1 = _ :=
          listedIn_matches hcode hnames hscope hzero (fun _ => hkeyword) h.ordinal hopener.ordinal
        have hinterfaces : listedIn s' scope' (fun k => k == .keyword .kwImplements ||
            decide (sort = .interfaceType) && k == .keyword .kwExtends) i' body'.1 = _ :=
          listedIn_matches hcode hnames hscope hzero
            (fun k hk => by
              rcases (Bool.or_eq_true _ _).mp hk with hk | hk
              · exact hkeyword hk
              · exact hkeyword ((Bool.and_eq_true _ _).mp hk).2)
            h.ordinal hopener.ordinal
        simp only [Option.bind_eq_bind, Option.bind_some, List.filterMap_eq_flatMap_toList,
          NameScope.qualify_matches hscope hzero h, hmembers (f := Member.traitNames) rfl,
          hmembers (f := fun m => m.method?.toList) rfl, hextends, hinterfaces]

/-- Keywords that match declare the same types. -/
theorem filterMap_read?_matches (hnames : s.SameNames s') (hscope : scope.Same s s' scope')
    {keywords keywords' : List Nat} (hkeywords : List.Forall₂ (Matches s s') keywords keywords') :
    keywords'.filterMap (read? s' scope') = keywords.filterMap (read? s scope) := by
  induction hkeywords with
  | nil => rfl
  | cons hkeyword _ ih =>
    rw [List.filterMap_cons, List.filterMap_cons, read?_matches hs hs' hcode hnames hscope hkeyword, ih]

/-- Both streams declare the same types. -/
theorem ofStream_matches (hnames : s.SameNames s') : ofStream s' = ofStream s :=
  filterMap_read?_matches hs hs' hcode hnames
    (NameScope.ofStream_same hs hs' hcode hnames)
    ((TokenStream.told_isTypeDeclaration hcode).forall₂_filter_range hcode)

end Sources

end Declaration

/-! ## The type around an index -/

namespace SymbolTable

section Sources

variable {source source' : Text} (hs : TokenStream.ofSource source = .ok s)
  (hs' : TokenStream.ofSource source' = .ok s') (hcode : s'.code = s.code)
include hs hs' hcode

/-- In the place of a file a file of the same code gives the same table. -/
theorem ofStreams_matches (hnames : s.SameNames s') (before after : List TokenStream) :
    ofStreams (before ++ s' :: after) = ofStreams (before ++ s :: after) := by
  simp only [ofStreams, List.foldl_append, List.foldl_cons, addFile,
    Declaration.ofStream_matches hs hs' hcode hnames]

/-- The nearest keyword of a type around tokens that match does match. -/
theorem keywordAround?_matches (h : Matches s s' i i') :
    Option.Rel (Matches s s') (keywordAround? s i) (keywordAround? s' i') := by
  have hdeclares {s : TokenStream} {i k : Nat}
      (hk : (s.isTypeDeclaration k && (s.body? k).any (TokenStream.inside i)) = true) :
      s.has k Kind.isSignificant = true :=
    TokenStream.isSignificant_of_isTypeDeclaration ((Bool.and_eq_true _ _).mp hk).1
  have htold : Told s s' (fun k => s.isTypeDeclaration k && (s.body? k).any (TokenStream.inside i))
      (fun k => s'.isTypeDeclaration k && (s'.body? k).any (TokenStream.inside i')) := by
    refine ⟨fun _ => hdeclares, fun _ => hdeclares, fun k k' hk => ?_⟩
    have hinside := Option.any_of_rel (hk.body? hs hs' hcode) fun _ _ hbody => hbody.inside h
    rw [hk.isTypeDeclaration hcode, hinside]
  have hlevel : Level s s' i i' := h.ordinal
  have hfound := htold.rel_find?_reverse hcode (TokenStream.level_zero s s') hlevel
  rwa [Nat.sub_zero, Nat.sub_zero, ← List.range_eq_range', ← List.range_eq_range'] at hfound

/-- The same type stands around tokens that match. -/
theorem typeAt?_matches (hnames : s.SameNames s') (h : Matches s s' i i') (t : SymbolTable) :
    t.typeAt? s' i' = t.typeAt? s i := by
  unfold typeAt?
  have hkeyword := keywordAround?_matches hs hs' hcode h
  generalize keywordAround? s i = keyword?, keywordAround? s' i' = keyword?' at hkeyword ⊢
  cases hkeyword with
  | none => simp only [Option.bind_eq_bind, Option.bind_none]
  | some hkeyword =>
    have hscope := NameScope.ofStream_same hs hs' hcode hnames
    have hname := NameScope.qualify_matches hscope (h.zero hs hs') hkeyword
    simp only [Option.bind_eq_bind, Option.bind_some, hkeyword.declaredName? hcode, hname]

end Sources

end SymbolTable

end PhpLint

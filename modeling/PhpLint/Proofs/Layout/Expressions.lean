import PhpLint.Proofs.Layout.Code
import PhpLint.Proofs.LineEnds.Finding

/-!
# Layout does not matter to the checks of expressions

The checks for the order of operands and for commas after the last element of an array go from a token
to its significant neighbours and its partner.  In two sources of one code these match, so the checks
find the same at tokens that match, each token told by its ordinal (`TellsCode`), and so do whole runs
of them (`TellsCode.reported`).
-/

namespace PhpLint

open TokenStream (Matches)

variable {s s' : TokenStream} {i i' : Nat}

/-! ## The order of operands in comparisons -/

namespace OperandOrder

section SameCode

variable (hcode : s'.code = s.code)
include hcode

theorem binds_matches (h : Matches s s' i i') : binds s' i' = binds s i := by
  rw [binds, binds, h.isAt hcode, h.isAt hcode, h.isAt hcode, h.content hcode]

theorem isSign_matches (h : Matches s s' i i') : isSign s' i' = isSign s i := by
  rw [isSign, isSign, h.isAt hcode, h.content hcode]

/-- The operand on the left is a literal in both streams or in neither. -/
theorem leftIsLiteral_matches (h : Matches s s' i i') : leftIsLiteral s' i' = leftIsLiteral s i := by
  unfold leftIsLiteral
  have hprevious := h.previousSignificant hcode
  generalize s.previousSignificant i = literal?, s'.previousSignificant i' = literal?' at hprevious ⊢
  cases hprevious with
  | none => rfl
  | @some literal literal' hliteral =>
    dsimp only
    rw [hliteral.has hcode, hliteral.has hcode]
    have hprevious := hliteral.previousSignificant hcode
    generalize s.previousSignificant literal = before?, s'.previousSignificant literal' = before?'
      at hprevious ⊢
    cases hprevious with
    | none => rfl
    | @some before before' hbefore =>
      dsimp only
      rw [isSign_matches hcode hbefore, binds_matches hcode hbefore]
      have hprevious := hbefore.previousSignificant hcode
      generalize s.previousSignificant before = further?, s'.previousSignificant before' = further?'
        at hprevious ⊢
      cases hprevious with
      | none => rfl
      | some hfurther =>
        dsimp only
        rw [hfurther.has hcode, binds_matches hcode hfurther]

/-- The literal behind a token, with its sign, ends at tokens that match. -/
theorem literalAfter?_matches (h : Matches s s' i i') :
    Option.Rel (Matches s s') (literalAfter? s i) (literalAfter? s' i') := by
  refine Option.rel_bind (h.nextSignificant hcode) fun next next' hnext => ?_
  rw [isSign_matches hcode hnext]
  split
  · exact Option.rel_filter (hnext.nextSignificant hcode) fun _ _ hafter => hafter.has hcode _
  · exact .some hnext

/-- The operand on the right is a literal in both streams or in neither. -/
theorem rightIsLiteral_matches (h : Matches s s' i i') :
    rightIsLiteral s' i' = rightIsLiteral s i := by
  rw [rightIsLiteral_eq, rightIsLiteral_eq]
  have hafter := literalAfter?_matches hcode h
  generalize literalAfter? s i = literal?, literalAfter? s' i' = literal?' at hafter ⊢
  cases hafter with
  | none => rfl
  | some hliteral =>
    dsimp only
    rw [hliteral.has hcode]
    congr 2
    refine Option.any_of_rel (hliteral.nextSignificant hcode) fun after after' hafter => ?_
    rw [binds_matches hcode hafter, hafter.isAt hcode]

end SameCode

/-- The verdict on a comparison and its wording. -/
theorem findings_matches {ctx ctx' : FileContext} (hcode : ctx'.stream.code = ctx.stream.code)
    (style : Style) (h : Matches ctx.stream ctx'.stream i i') :
    (findings style ctx' i').map (Finding.move ctx'.stream.ordinal) =
      (findings style ctx i).map (Finding.move ctx.stream.ordinal) := by
  unfold findings
  dsimp only
  rw [leftIsLiteral_matches hcode h, rightIsLiteral_matches hcode h, h.content hcode]
  cases style with
  | require =>
    dsimp only
    split
    · rw [List.map_singleton, List.map_singleton, Finding.move, h.ordinal]
      rfl
    · rfl
  | disallow =>
    dsimp only
    split
    · rw [List.map_singleton, List.map_singleton, Finding.move, h.ordinal]
      rfl
    · rfl

end OperandOrder

/-! ## Commas after the last element of an array -/

namespace ArrayTrailingComma

/-- The arrays that start at tokens that match have brackets that match. -/
theorem opener?_matches (hcode : s'.code = s.code) (h : Matches s s' i i') :
    Option.Rel (Matches s s') (opener? s i) (opener? s' i') := by
  have hindexable := Option.any_of_rel (h.previousSignificant hcode) fun _ _ hbefore =>
    hbefore.has hcode isIndexable
  unfold opener?
  rw [h.isAt hcode, h.isAt hcode, hindexable]
  split
  · split
    · exact .none
    · exact .some h
  · split
    · exact Option.rel_filter (h.nextSignificant hcode) fun _ _ hnext => hnext.isAt hcode _
    · exact .none

/-- The commas after the last elements match. -/
theorem comma?_matches {source source' : Text} (hs : TokenStream.ofSource source = .ok s)
    (hs' : TokenStream.ofSource source' = .ok s') (hcode : s'.code = s.code)
    (h : Matches s s' i i') : Option.Rel (Matches s s') (comma? s i) (comma? s' i') := by
  refine Option.rel_bind (opener?_matches hcode h) fun opener opener' hopener => ?_
  refine Option.rel_bind (hopener.partner? hs hs' hcode) fun closer closer' hcloser => ?_
  refine Option.rel_bind (hcloser.previousSignificant hcode) fun last last' hlast => ?_
  rw [hlast.isAt hcode]
  simp only [hopener.lt_iff hlast]
  split
  · exact .some hlast
  · exact .none

/-- What is found at tokens that match lies at the same places of the code. -/
theorem findings_matches {ctx ctx' : FileContext} {source source' : Text}
    (hs : TokenStream.ofSource source = .ok ctx.stream)
    (hs' : TokenStream.ofSource source' = .ok ctx'.stream)
    (hcode : ctx'.stream.code = ctx.stream.code) (h : Matches ctx.stream ctx'.stream i i') :
    (findings ctx' i').map (Finding.move ctx'.stream.ordinal) =
      (findings ctx i).map (Finding.move ctx.stream.ordinal) := by
  rw [findings_eq, findings_eq]
  have hcomma := comma?_matches hs hs' hcode h
  generalize comma? ctx.stream i = comma?, comma? ctx'.stream i' = comma?' at hcomma ⊢
  cases hcomma with
  | none => rfl
  | some hcomma =>
    rw [List.map_singleton, List.map_singleton, Finding.move, hcomma.ordinal]
    rfl

/-- What is found is a comma, and has no further labels. -/
theorem isAt_of_mem_findings {ctx : FileContext} {f : Finding} (hf : f ∈ findings ctx i) :
    ctx.stream.isAt f.index .comma = true ∧ f.labels = [] := by
  rw [findings_eq] at hf
  cases hcomma : comma? ctx.stream i with
  | none =>
    rw [hcomma] at hf
    cases hf
  | some comma =>
    rw [hcomma] at hf
    obtain rfl := List.mem_singleton.1 hf
    exact ⟨isAt_of_comma? hcomma, rfl⟩

end ArrayTrailingComma

/-! ## Whole files -/

/-- What a check finds in a file, in the order of the tokens at which it is asked. -/
def Sniff.reported (sniff : Sniff) (ctx : FileContext) : List Finding :=
  ((List.range ctx.stream.size).filter (ctx.stream.has · sniff.listensTo.contains)).flatMap
    (sniff.findings ctx)

/-- In two files a check finds the same in their code, every token told by its ordinal. -/
structure Sniff.TellsCode (sniff : Sniff) (ctx ctx' : FileContext) : Prop where
  /-- At significant tokens with as many significant tokens before them it has the same verdict for the
  same reason and in the same words. -/
  findings : ∀ i i', Matches ctx.stream ctx'.stream i i' →
    (sniff.findings ctx' i').map (Finding.move ctx'.stream.ordinal) =
      (sniff.findings ctx i).map (Finding.move ctx.stream.ordinal)
  /-- It points at significant tokens alone, which their ordinals tell apart. -/
  points : ∀ i f, ctx.stream.has i Kind.isSignificant = true → f ∈ sniff.findings ctx i →
    ctx.stream.has f.index Kind.isSignificant = true ∧ f.labels = []
  /-- It reports the same in the same order over the whole file. -/
  reported : (sniff.reported ctx').map (Finding.move ctx'.stream.ordinal) =
    (sniff.reported ctx).map (Finding.move ctx.stream.ordinal)

section Files

variable {ctx ctx' : FileContext}

/-- A check that listens for code alone. -/
theorem Sniff.reported_eq {sniff : Sniff} (hlistens : ∀ k ∈ sniff.listensTo, k.isSignificant = true)
    (ctx : FileContext) :
    sniff.reported ctx =
      (ctx.stream.codeIndices.filter (ctx.stream.has · sniff.listensTo.contains)).flatMap
        (sniff.findings ctx) := by
  rw [reported, TokenStream.codeIndices, List.filter_filter]
  congr 1
  refine List.filter_congr fun i _ => ?_
  rw [Bool.eq_self_and]
  intro hi
  obtain ⟨k, hk, hat⟩ := TokenStream.exists_isAt_of_has_contains hi
  rw [TokenStream.has_of_isAt hat]
  exact hlistens k hk

/-- What a check finds over a whole file follows from what it finds at each token. -/
theorem Sniff.reported_matches {sniff : Sniff}
    (hlistens : ∀ k ∈ sniff.listensTo, k.isSignificant = true)
    (hcode : ctx'.stream.code = ctx.stream.code)
    (hfindings : ∀ i i', Matches ctx.stream ctx'.stream i i' →
      (sniff.findings ctx' i').map (Finding.move ctx'.stream.ordinal) =
        (sniff.findings ctx i).map (Finding.move ctx.stream.ordinal)) :
    (sniff.reported ctx').map (Finding.move ctx'.stream.ordinal) =
      (sniff.reported ctx).map (Finding.move ctx.stream.ordinal) := by
  have hasked := List.rel_filter (p := (ctx.stream.has · sniff.listensTo.contains))
    (q := (ctx'.stream.has · sniff.listensTo.contains))
    (fun i i' h => iff_of_eq (congrArg (· = true) (h.has hcode _).symm)) (TokenStream.forall₂_codeIndices hcode)
  rw [reported_eq hlistens, reported_eq hlistens, List.map_flatMap, List.map_flatMap, eq_comm,
    ← List.forall₂_eq_eq_eq]
  refine List.rel_flatMap hasked fun i i' h => ?_
  rw [List.forall₂_eq_eq_eq]
  exact (hfindings i i' h).symm

/-- **Layout does not matter to the checks of expressions.**  In any two files whose sources have the
same code, whatever white space, comments and doc comments stand in it, the check for the order of
operands in either style and the check for commas after the last element of an array find the same. -/
theorem tellsCode_of_code {source source' : Text}
    (hs : TokenStream.ofSource source = .ok ctx.stream)
    (hs' : TokenStream.ofSource source' = .ok ctx'.stream)
    (hcode : ctx'.stream.code = ctx.stream.code) :
    (∀ severity style, (OperandOrder.sniff severity style).TellsCode ctx ctx') ∧
      ∀ severity, (ArrayTrailingComma.sniff severity).TellsCode ctx ctx' := by
  constructor
  · intro severity style
    have hfindings (i i' : Nat) (h : Matches ctx.stream ctx'.stream i i') :=
      OperandOrder.findings_matches hcode style h
    refine ⟨hfindings, fun i f hi hf => ?_, Sniff.reported_matches ?_ hcode hfindings⟩
    · obtain ⟨hindex, hlabels⟩ := OperandOrder.index_of_mem_findings hf
      exact ⟨hindex ▸ hi, hlabels⟩
    · intro k hk
      obtain ⟨c, -, rfl⟩ := List.mem_map.1 hk
      rfl
  · intro severity
    have hfindings (i i' : Nat) (h : Matches ctx.stream ctx'.stream i i') :=
      ArrayTrailingComma.findings_matches hs hs' hcode h
    refine ⟨hfindings, fun i f _ hf => ?_, Sniff.reported_matches ?_ hcode hfindings⟩
    · obtain ⟨hcomma, hlabels⟩ := ArrayTrailingComma.isAt_of_mem_findings hf
      exact ⟨TokenStream.has_of_isAt hcomma _, hlabels⟩
    · simp [ArrayTrailingComma.sniff, Kind.isSignificant, Kind.isTrivia, Kind.isDocComment]

end Files

/-- A comparison and an array. -/
def comparedArray : Text := "<?php\nif ($a == -1) $b = [1, 2, ];".toList

/-- The same code with other layout: doc comments with brackets in them among its brackets, and no space
where none is needed. -/
def comparedArrayDocumented : Text :=
  "<?php\n/** [ */ if(/** ) ( */$a/* [ */==\n- /** ] */1)$b=[1,2/** ( @x [ */,# ]\n/** ( */];".toList

/-- Of the two sources, the one with almost twice the tokens of the other, both checks find the same. -/
theorem tellsCode_of_code_documented :
    ∃ ctx ctx' : FileContext,
      TokenStream.ofSource comparedArray = .ok ctx.stream ∧
      TokenStream.ofSource comparedArrayDocumented = .ok ctx'.stream ∧
      ctx'.stream.code = ctx.stream.code ∧ ctx.stream.size = 25 ∧ ctx'.stream.size = 48 ∧
      ((OperandOrder.sniff .error .require).reported ctx).map (fun f =>
        (ctx.stream.ordinal f.index, f.reason)) = [(4, "NotYoda")] ∧
      ((ArrayTrailingComma.sniff .error).reported ctx).map (fun f =>
        (ctx.stream.ordinal f.index, f.reason)) = [(14, "Found")] ∧
      (∀ severity style, (OperandOrder.sniff severity style).TellsCode ctx ctx') ∧
      ∀ severity, (ArrayTrailingComma.sniff severity).TellsCode ctx ctx' := by
  have hfound : (TokenStream.ofSource comparedArray).map (fun s =>
      let ctx : FileContext := ⟨comparedArray, s, .ofStreams [s], ⟨[]⟩⟩
      (s.size,
        ((OperandOrder.sniff .error .require).reported ctx).map fun f =>
          (s.ordinal f.index, f.reason),
        ((ArrayTrailingComma.sniff .error).reported ctx).map fun f =>
          (s.ordinal f.index, f.reason))) = .ok (25, [(4, "NotYoda")], [(14, "Found")]) := by
    decide +kernel
  have hcode : (TokenStream.ofSource comparedArrayDocumented).map TokenStream.code =
      (TokenStream.ofSource comparedArray).map TokenStream.code := by decide +kernel
  have hsize' : (TokenStream.ofSource comparedArrayDocumented).map TokenStream.size = .ok 48 := by
    decide +kernel
  obtain ⟨s, hs, hfound⟩ := TokenStream.exists_of_map_ofSource hfound
  obtain ⟨s', hs', hsize'⟩ := TokenStream.exists_of_size_ofSource hsize'
  obtain ⟨hsize, hreports⟩ := Prod.mk.inj hfound
  obtain ⟨hcomparison, hcomma⟩ := Prod.mk.inj hreports
  rw [hs, hs'] at hcode
  replace hcode : s'.code = s.code := Except.ok.inj hcode
  exact ⟨⟨comparedArray, s, .ofStreams [s], ⟨[]⟩⟩, ⟨comparedArrayDocumented, s', .ofStreams [s'], ⟨[]⟩⟩,
    hs, hs', hcode, hsize, hsize', hcomparison, hcomma, tellsCode_of_code hs hs' hcode⟩

end PhpLint

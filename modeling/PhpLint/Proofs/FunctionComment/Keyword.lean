import PhpLint.Proofs.FunctionComment.Inheritdoc

/-!
# The keywords that are asked for a comment

A function keyword is asked for a comment when a name follows it, a reference sign before the name not
counted, so a closure is never reported.  Behind the name nothing is looked at.  The parenthesis that
makes a declaration of it may be missing, as it is in an import of functions: the comment of such a
keyword is missing too, whatever stands around the import (`reported_only_if_named`).
-/

namespace PhpLint

namespace TokenStream

variable {s : TokenStream} {i j : Nat}

/-- Between two indices stand white space and comments alone. -/
def OnlyTrivia (s : TokenStream) (i j : Nat) : Prop :=
  ∀ k, i < k → k < j → s.has k Kind.isTrivia = true

/-- A name follows the keyword at `i`, white space and comments left out, and stands at `n`. -/
inductive Names (s : TokenStream) (i n : Nat) : Prop
  /-- Right behind the keyword. -/
  | plain (hlt : i < n) (hbetween : s.OnlyTrivia i n) (hname : s.isAt n .identifier = true)
      (hplain : s.content n ≠ ['&'])
  /-- Behind one reference sign. -/
  | reference (sign : Nat) (hsign : i < sign) (hbefore : s.OnlyTrivia i sign)
      (hcode : s.has sign Kind.isSignificant = true) (hand : s.content sign = ['&'])
      (hlt : sign < n) (hbetween : s.OnlyTrivia sign n) (hname : s.isAt n .identifier = true)

/-- The keyword at `i` declares a function: a name follows it, and a parenthesis the name. -/
def DeclaresFunction (s : TokenStream) (i : Nat) : Prop :=
  ∃ n p, s.Names i n ∧ s.nextSignificant n = some p ∧ s.isAt p (.opens .round) = true

/-- What does not carry code is white space or a comment. -/
theorem has_isTrivia_iff (hi : i < s.size) :
    s.has i Kind.isTrivia = true ↔ s.has i Kind.isSignificant = false := by
  obtain ⟨t, ht⟩ := exists_token? hi
  rw [has_of_token? ht, has_of_token? ht, Kind.isSignificant, Bool.not_eq_false']

/-- The next code is the first token behind an index that is no white space and no comment. -/
theorem nextSignificant_eq_some_iff :
    s.nextSignificant i = some j ↔
      i < j ∧ s.has j Kind.isSignificant = true ∧ s.OnlyTrivia i j := by
  rw [nextSignificant, findNext_eq_some_iff]
  refine and_congr_right fun _ => and_congr_right fun hj => ?_
  have hsize (k : Nat) (hk : k < j) : k < s.size := Nat.lt_trans hk (lt_size_of_has hj)
  exact ⟨fun h k hik hkj => (has_isTrivia_iff (hsize k hkj)).2 (h k hik hkj),
    fun h k hik hkj => (has_isTrivia_iff (hsize k hkj)).1 (h k hik hkj)⟩

/-- The look-up of a declared name finds the name that follows the keyword, and no other. -/
theorem declaredName?_eq_some_iff {name : Text} :
    s.declaredName? i = some name ↔ ∃ n, s.Names i n ∧ s.content n = name := by
  have hcode {n : Nat} (hname : s.isAt n .identifier = true) : s.has n Kind.isSignificant = true :=
    has_of_isAt hname _
  simp only [declaredName?, Option.bind_eq_bind, Option.bind_eq_some_iff]
  constructor
  · rintro ⟨next, hnext, hname⟩
    obtain ⟨hlt, hsignificant, hbetween⟩ := nextSignificant_eq_some_iff.1 hnext
    by_cases hand : s.content next = ['&']
    · rw [if_pos hand] at hname
      obtain ⟨n, hn, hname⟩ := Option.bind_eq_some_iff.1 hname
      obtain ⟨hidentifier, hcontent⟩ := Option.ite_none_right_eq_some.1 hname
      obtain ⟨hfurther, -, hbehind⟩ := nextSignificant_eq_some_iff.1 hn
      exact ⟨n, .reference next hlt hbetween hsignificant hand hfurther hbehind hidentifier,
        Option.some.inj hcontent⟩
    · rw [if_neg hand, Option.bind_some] at hname
      obtain ⟨hidentifier, hcontent⟩ := Option.ite_none_right_eq_some.1 hname
      exact ⟨next, .plain hlt hbetween hidentifier hand, Option.some.inj hcontent⟩
  · rintro ⟨n, hnames, rfl⟩
    cases hnames with
    | plain hlt hbetween hname hplain =>
      refine ⟨n, nextSignificant_eq_some_iff.2 ⟨hlt, hcode hname, hbetween⟩, ?_⟩
      rw [if_neg hplain, Option.bind_some, if_pos hname]
    | reference sign hsign hbefore hsignificant hand hlt hbetween hname =>
      refine ⟨sign, nextSignificant_eq_some_iff.2 ⟨hsign, hsignificant, hbefore⟩, ?_⟩
      have hnext : s.nextSignificant sign = some n :=
        nextSignificant_eq_some_iff.2 ⟨hlt, hcode hname, hbetween⟩
      rw [if_pos hand, hnext, Option.bind_some, if_pos hname]

/-- A sign in front of a name stands before the name, so it can be searched for. -/
theorem names_iff_exists_lt {n : Nat} :
    s.Names i n ↔ s.isAt n .identifier = true ∧
      (i < n ∧ s.OnlyTrivia i n ∧ s.content n ≠ ['&'] ∨
        ∃ sign, sign < n ∧ i < sign ∧ s.OnlyTrivia i sign ∧
          s.has sign Kind.isSignificant = true ∧ s.content sign = ['&'] ∧ s.OnlyTrivia sign n) := by
  constructor
  · intro h
    cases h with
    | plain hlt hbetween hname hplain => exact ⟨hname, .inl ⟨hlt, hbetween, hplain⟩⟩
    | reference sign hsign hbefore hcode hand hlt hbetween hname =>
      exact ⟨hname, .inr ⟨sign, hlt, hsign, hbefore, hcode, hand, hbetween⟩⟩
  · rintro ⟨hname, ⟨hlt, hbetween, hplain⟩ | ⟨sign, hlt, hsign, hbefore, hcode, hand, hbetween⟩⟩
    · exact .plain hlt hbetween hname hplain
    · exact .reference sign hsign hbefore hcode hand hlt hbetween hname

instance (s : TokenStream) (i j : Nat) : Decidable (s.OnlyTrivia i j) :=
  decidable_of_iff (∀ k, k < j → i < k → s.has k Kind.isTrivia = true)
    ⟨fun h k hik hkj => h k hkj hik, fun h k hkj hik => h k hik hkj⟩

instance (s : TokenStream) (i n : Nat) : Decidable (s.Names i n) :=
  decidable_of_iff _ names_iff_exists_lt.symm

/-- The name of a declaration stands in the stream, so it can be searched for. -/
theorem declaresFunction_iff_exists_lt :
    s.DeclaresFunction i ↔ ∃ n, n < s.size ∧ s.Names i n ∧
      (s.nextSignificant n).any (s.isAt · (.opens .round)) = true := by
  have hsize {n : Nat} (h : s.Names i n) : n < s.size :=
    lt_size_of_has (has_of_isAt (names_iff_exists_lt.1 h).1 fun _ => true)
  simp only [DeclaresFunction, Option.any_eq_true]
  constructor
  · rintro ⟨n, p, hnames, hnext, hround⟩
    exact ⟨n, hsize hnames, hnames, p, hnext, hround⟩
  · rintro ⟨n, -, hnames, p, hnext, hround⟩
    exact ⟨n, p, hnames, hnext, hround⟩

instance (s : TokenStream) (i : Nat) : Decidable (s.DeclaresFunction i) :=
  decidable_of_iff _ declaresFunction_iff_exists_lt.symm

/-- A function keyword starts a closure exactly when no name follows it. -/
theorem isClosure_eq_false_iff (hi : s.isAt i (.keyword .kwFunction) = true) :
    s.isClosure i = false ↔ ∃ n, s.Names i n := by
  have hnamed : (∃ n, s.Names i n) ↔ ∃ name, s.declaredName? i = some name := by
    simp only [declaredName?_eq_some_iff]
    exact ⟨fun ⟨n, hn⟩ => ⟨_, n, hn, rfl⟩, fun ⟨_, n, hn, _⟩ => ⟨n, hn⟩⟩
  rw [hnamed, isClosure, hi, Bool.true_and, Option.isNone_eq_false_iff, Option.isSome_iff_exists]

end TokenStream

namespace FunctionComment

open TokenStream FileContext

variable {s : TokenStream} {ctx : FileContext} {testClasses : List Text} {i u : Nat}

/-- The finding at a function without a comment. -/
def missing (i : Nat) : Finding :=
  { index := i, reason := "Missing", message := "Missing function doc comment" }

theorem findings_of_isClosure (h : ctx.stream.isClosure i = true) :
    findings testClasses ctx i = [] := by
  simp [findings, h]

/-- What is reported of a keyword with a name but no comment above it. -/
theorem findings_of_commentEnd?_eq_none (hnamed : ctx.stream.isClosure i = false)
    (hnone : commentEnd? ctx.stream i = none) :
    findings testClasses ctx i = if isTestMethod testClasses ctx i then [] else [missing i] := by
  simp [findings, hnamed, hnone, missing]

/-- Where the nearest token above is no comment, there is no comment. -/
theorem commentEnd?_eq_none (hnearest : s.findBefore hidesComment i = some u)
    (hcomment : s.isAt u .comment = false) (hcloser : s.isAt u (.closes .docComment) = false) :
    commentEnd? s i = none := by
  simp [commentEnd?, hnearest, hcomment, hcloser]

/-- A keyword outside of every type is no test. -/
theorem isTestMethod_eq_false_of_typeAt? (h : ctx.symbols.typeAt? ctx.stream i = none) :
    isTestMethod testClasses ctx i = false := by
  simp [isTestMethod, h]

/-- **Only a keyword that a name follows is reported**, and what follows the name does not matter: the
comment is missing wherever code stands above the keyword, be it the `use` of an import. -/
theorem reported_only_if_named (hi : ctx.stream.isAt i (.keyword .kwFunction) = true) :
    (findings testClasses ctx i ≠ [] → ∃ n, ctx.stream.Names i n) ∧
      (∀ n u, ctx.stream.Names i n → ctx.stream.findBefore hidesComment i = some u →
        ctx.stream.isAt u .comment = false → ctx.stream.isAt u (.closes .docComment) = false →
        ctx.symbols.typeAt? ctx.stream i = none → findings testClasses ctx i = [missing i]) := by
  constructor
  · intro hreported
    rw [← isClosure_eq_false_iff hi, Bool.eq_false_iff]
    intro hclosure
    exact hreported (findings_of_isClosure hclosure)
  · intro n u hnames hnearest hcomment hcloser houtside
    have hnamed := (isClosure_eq_false_iff hi).2 ⟨n, hnames⟩
    have hnone := commentEnd?_eq_none hnearest hcomment hcloser
    rw [findings_of_commentEnd?_eq_none hnamed hnone, isTestMethod_eq_false_of_typeAt? houtside]
    rfl

/-- The name of a function that returns a reference, behind a comment. -/
theorem reported_only_if_named_reference :
    ∃ ctx : FileContext,
      ctx.source = String.toList "<?php function & /* name */ f() {}" ∧
      ofSource ctx.source = .ok ctx.stream ∧ ctx.symbols = SymbolTable.ofStreams [ctx.stream] ∧
      ctx.stream.isAt 1 (.keyword .kwFunction) = true ∧ findings [] ctx 1 ≠ [] ∧
      ∃ n, ctx.stream.Names 1 n := by
  have hcontext : ∃ ctx : FileContext,
      ctx.source = String.toList "<?php function & /* name */ f() {}" ∧
      ofSource ctx.source = .ok ctx.stream ∧ ctx.symbols = SymbolTable.ofStreams [ctx.stream] ∧
      ctx.stream.isAt 1 (.keyword .kwFunction) = true ∧ findings [] ctx 1 ≠ [] :=
    exists_context (by decide +kernel)
  obtain ⟨ctx, hsource, hstream, hsymbols, hkeyword, hreported⟩ := hcontext
  have hnamed := (reported_only_if_named hkeyword).1 hreported
  exact ⟨ctx, hsource, hstream, hsymbols, hkeyword, hreported, hnamed⟩

/-- A keyword that imports a function is reported, though it declares none. -/
theorem findings_import_function :
    ∃ ctx : FileContext,
      ctx.source = String.toList "<?php use function A\\b;" ∧
      ofSource ctx.source = .ok ctx.stream ∧ ctx.symbols = SymbolTable.ofStreams [ctx.stream] ∧
      ctx.stream.isAt 3 (.keyword .kwFunction) = true ∧ findings [] ctx 3 ≠ [] ∧
      ¬ctx.stream.DeclaresFunction 3 :=
  exists_context (by decide +kernel)

end FunctionComment

end PhpLint

import PhpLint.Proofs.Lexing.Layout
import PhpLint.Proofs.Symbols.Enclosing

/-!
# The innermost type is found

The look-up of the type around an index works out a second time what the table was filled with: the
body of each declaration, and the full name that its keyword declares.  Both agree with the first
time.  So if no two declarations share a name, the answer is what is declared there
(`get?_eq_of_mem`), by the keyword whose body lies inside of all other named bodies around the index
(`keywordAround?_eq_some`); and without such a body there is no answer
(`keywordAround?_eq_none_iff`).
-/

namespace PhpLint.TokenStream

variable {s : TokenStream} {i k o c : Nat}

/-- The named body of the keyword at `k` holds the index and lies inside of every other named body
that does. -/
structure Tightest (s : TokenStream) (i k o c : Nat) : Prop where
  body : s.NamedBody k o c
  around : o < i ∧ i < c
  inside : ∀ k' o' c', s.NamedBody k' o' c' → o' < i → i < c' → o' ≤ o ∧ c ≤ c'

/-- Of two bodies around an index, the one that opens later lies inside of the other. -/
theorem NamedBody.closer_le {k' o' c' : Nat} (h : s.NamedBody k o c) (h' : s.NamedBody k' o' c')
    (hi : o < i ∧ i < c) (hi' : o' < i ∧ i < c') (hle : o' ≤ o) : c ≤ c' := by
  rcases Nat.lt_or_eq_of_le hle with hlt | rfl
  · have hoc : o < c := Nat.lt_trans hi.1 hi.2
    have hoc' : o' < c' := Nat.lt_trans hi'.1 hi'.2
    rcases nested_of_partner? h'.closer hoc' h.closer hoc hlt with hbehind | hinside
    · omega
    · exact Nat.le_of_lt hinside
  · exact Nat.le_of_eq (Option.some.inj (h.closer.symm.trans h'.closer))

/-- The innermost named body is the tightest one. -/
theorem Innermost.tightest (h : Innermost s.NamedBody i k o c) : s.Tightest i k o c := by
  refine ⟨h.body, h.around, fun k' o' c' hbody ho hc => ?_⟩
  have hle := h.innermost k' o' c' hbody ho hc
  exact ⟨hle, h.body.closer_le hbody h.around ⟨ho, hc⟩ hle⟩

/-- The keyword that is found has the tightest named body. -/
theorem keywordAround?_eq_some (h : SymbolTable.keywordAround? s i = some k) :
    ∃ o c, s.Tightest i k o c := by
  obtain ⟨o, c, hinner⟩ := innermost_keywordAround? h
  exact ⟨o, c, hinner.tightest⟩

/-- No keyword is found when no named body holds the index. -/
theorem keywordAround?_eq_none_iff :
    SymbolTable.keywordAround? s i = none ↔
      ∀ k o c, s.NamedBody k o c → ¬(o < i ∧ i < c) := by
  simp only [SymbolTable.keywordAround?, List.find?_eq_none, List.mem_reverse, List.mem_range,
    Bool.and_eq_true]
  constructor
  · intro hnone k o c hbody haround
    have hk : k < i := Nat.lt_trans hbody.lt haround.1
    refine hnone k hk ⟨hbody.declares, ?_⟩
    rw [(namedBody_iff.1 hbody).2, Option.any_some]
    exact inside_iff.2 haround
  · rintro hnone k - ⟨hdeclares, hany⟩
    obtain ⟨⟨o, c⟩, hbody, hinside⟩ := (Option.any_eq_true _ _).1 hany
    exact hnone k o c (namedBody_iff.2 ⟨hdeclares, hbody⟩) (inside_iff.1 hinside)

end PhpLint.TokenStream

namespace PhpLint.SymbolTable

open TokenStream

variable {streams : List TokenStream} {s : TokenStream} {i : Nat} {symbol : TypeSymbol}

/-- No two declarations of the files have one name, whatever the case of its letters, and none has a
name with a separator in front. -/
structure DistinctNames (streams : List TokenStream) : Prop where
  nodup : ((streams.flatMap Declaration.ofStream).map (Text.foldCase ·.name)).Nodup
  plain : ∀ symbol ∈ streams.flatMap Declaration.ofStream, symbol.name.head? ≠ some '\\'

/-- Whether names are distinct is decided by the declarations of the files. -/
theorem distinctNames_iff :
    DistinctNames streams ↔
      ((streams.flatMap Declaration.ofStream).map (Text.foldCase ·.name)).Nodup ∧
        ∀ symbol ∈ streams.flatMap Declaration.ofStream, symbol.name.head? ≠ some '\\' :=
  ⟨fun h => ⟨h.nodup, h.plain⟩, fun h => ⟨h.1, h.2⟩⟩

instance (streams : List TokenStream) : Decidable (DistinctNames streams) :=
  decidable_of_iff _ distinctNames_iff.symm

/-- The table finds each declaration under its own name. -/
theorem get?_eq_of_mem (h : DistinctNames streams)
    (hmem : symbol ∈ streams.flatMap Declaration.ofStream) :
    (ofStreams streams).get? symbol.name = some symbol := by
  have hsame : Text.sameLetters symbol.name (stripLeading symbol.name) = true := by
    rw [stripLeading_of_head?_ne (h.plain symbol hmem)]
    exact Text.sameLetters_refl symbol.name
  have hnodup := h.nodup
  rw [← symbols_ofStreams] at hnodup hmem
  exact get?_eq_some_of_nodup hnodup hmem hsame

/-- An answer about the type around an index: it is declared by the keyword of the tightest named
body, and there is none exactly if no named body holds the index. -/
structure AnswersInnermost (s : TokenStream) (i : Nat) (answer : Option TypeSymbol) : Prop where
  found : ∀ symbol, answer = some symbol → ∃ k o c, s.Tightest i k o c ∧
    Declaration.read? s (NameScope.ofStream s) k = some symbol
  none_iff : answer = none ↔ ∀ k o c, s.NamedBody k o c → ¬(o < i ∧ i < c)

/-- The declaration of the keyword that the look-up takes is the answer. -/
theorem typeAt?_eq_read? (h : DistinctNames streams) (hs : s ∈ streams) {k o c : Nat}
    (hk : keywordAround? s i = some k) (hbody : s.NamedBody k o c) :
    ∃ own, Declaration.read? s (NameScope.ofStream s) k = some own ∧
      (ofStreams streams).typeAt? s i = some own := by
  obtain ⟨name, own, hname, hread, hown⟩ := exists_read? hbody (NameScope.ofStream s)
  have hmem := mem_symbols_of_read? hs hbody.declares hread
  rw [symbols_ofStreams] at hmem
  refine ⟨own, hread, ?_⟩
  simp only [typeAt?, hk, hname, Option.bind_eq_bind, Option.bind_some]
  rw [← hown, get?_eq_of_mem h hmem]

/-- **The innermost type is found.**  In a table of files that declare no name twice, the type
around an index of one of the files is the one declared by the keyword of its innermost named body;
there is none exactly if no named body holds the index. -/
theorem typeAtChecked_innermost (h : DistinctNames streams) (hs : s ∈ streams) (hi : i ≤ s.size) :
    ∃ answer, (ofStreams streams).typeAtChecked s i = .ok answer ∧ AnswersInnermost s i answer := by
  refine ⟨(ofStreams streams).typeAt? s i, if_pos hi, ?_⟩
  cases hk : keywordAround? s i with
  | none =>
    have hanswer : (ofStreams streams).typeAt? s i = none := by
      simp only [typeAt?, hk, Option.bind_eq_bind, Option.bind_none]
    rw [hanswer]
    constructor
    case found =>
      intro symbol hsome
      cases hsome
    case none_iff => exact ⟨fun _ => keywordAround?_eq_none_iff.1 hk, fun _ => rfl⟩
  | some k =>
    obtain ⟨o, c, htightest⟩ := keywordAround?_eq_some hk
    obtain ⟨own, hread, hanswer⟩ := typeAt?_eq_read? h hs hk htightest.body
    rw [hanswer]
    constructor
    case found =>
      rintro symbol ⟨rfl⟩
      exact ⟨k, o, c, htightest, hread⟩
    case none_iff =>
      constructor
      · intro hnone
        cases hnone
      · intro hnone
        exact absurd htightest.around (hnone k o c htightest.body)

/-- Around the return in a method of a class that is declared inside of a method, in a file with a
namespace, the inner class is found. -/
theorem typeAtChecked_innermost_nested :
    ∃ s s', TokenStream.ofSource ("<?php\nnamespace App;\nclass Outer \x7b function f() \x7b " ++
        "class Inner \x7b function g() \x7b return 1; \x7d \x7d \x7d \x7d").toList = .ok s ∧
      TokenStream.ofSource "<?php\ntrait Inner \x7b use App\\Outer; \x7d".toList = .ok s' ∧
      DistinctNames [s', s] ∧ s ∈ [s', s] ∧ s.isAt 34 (.keyword .kwReturn) = true ∧ 34 ≤ s.size ∧
      ∃ answer, (ofStreams [s', s]).typeAtChecked s 34 = .ok answer ∧
        AnswersInnermost s 34 answer := by
  have hfirst : (TokenStream.ofSource ("<?php\nnamespace App;\nclass Outer \x7b function f() \x7b " ++
      "class Inner \x7b function g() \x7b return 1; \x7d \x7d \x7d \x7d").toList).map
      (fun s => decide (s.isAt 34 (.keyword .kwReturn) = true ∧ 34 ≤ s.size ∧
        Declaration.ofStream s = [⟨"App\\Outer".toList, .classType, [], [], [], ["f".toList]⟩,
          ⟨"App\\Inner".toList, .classType, [], [], [], ["g".toList]⟩])) = .ok true := by
    decide +kernel
  have hsecond : (TokenStream.ofSource "<?php\ntrait Inner \x7b use App\\Outer; \x7d".toList).map
      (fun s => decide (Declaration.ofStream s =
        [⟨"Inner".toList, .traitType, [], [], ["App\\Outer".toList], []⟩])) = .ok true := by
    decide +kernel
  obtain ⟨s, hs, hcomputed⟩ := TokenStream.exists_of_map_ofSource hfirst
  obtain ⟨s', hs', hcomputed'⟩ := TokenStream.exists_of_map_ofSource hsecond
  obtain ⟨hreturn, hsize, hdeclared⟩ := of_decide_eq_true hcomputed
  have hdistinct : DistinctNames [s', s] := by
    rw [distinctNames_iff]
    simp only [List.flatMap_cons, List.flatMap_nil, hdeclared, of_decide_eq_true hcomputed']
    decide
  have hmem : s ∈ [s', s] := by simp
  exact ⟨s, s', hs, hs', hdistinct, hmem, hreturn, hsize,
    typeAtChecked_innermost hdistinct hmem hsize⟩

end PhpLint.SymbolTable


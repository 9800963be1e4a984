import Mathlib.Data.List.DropRight
import PhpLint.Proofs.Scopes.OwnBody
import PhpLint.Proofs.Symbols.Reachability
import PhpLint.Proofs.Text.Cut

/-!
# The type around an index

The look-up of the type around an index goes through the type keywords in front of it, last one
first, and takes the first whose body holds the index.  This is the innermost named body, for a later
keyword never opens its body earlier (`innermost_keywordAround?`).  What the keyword declares is one
of the table's declarations if the table knows the file, and in force unless it is declared again.
-/

namespace PhpLint.TokenStream

variable {s : TokenStream} {i k o c : Nat}

/-- The body of the type with a name whose keyword is at `k`: it opens with the first brace after
the keyword, before any semicolon.  What counts as such a keyword is told by `isTypeDeclaration`, which
looks at the tokens beside the word alone.  So a method with the name of a keyword may be taken for a
declaration, as `NameScope.importsAt_unlike_written` shows. -/
structure NamedBody (s : TokenStream) (k o c : Nat) : Prop where
  declares : s.isTypeDeclaration k = true
  lt : k < o
  opener : s.isAt o (.opens .curly) = true
  closer : s.partner? o = some c
  first : ∀ j, k < j → j < o → s.has j endsHeader = false

/-- The body of the anonymous class whose keyword is at `k`. -/
structure AnonymousBody (s : TokenStream) (k o c : Nat) : Prop where
  starts : s.startsAnonymous k = true
  own : s.OwnBody k o c

/-- The body of the class, interface or trait whose keyword is at `k`. -/
def TypeBody (s : TokenStream) (k o c : Nat) : Prop := s.NamedBody k o c ∨ s.AnonymousBody k o c

/-- The body of an anonymous class lies around the index, with no named body in between. -/
def InAnonymous (s : TokenStream) (i : Nat) : Prop :=
  ∃ k o c, s.AnonymousBody k o c ∧ o < i ∧ i < c ∧
    ∀ k' o' c', s.NamedBody k' o' c' → o' < i → i < c' → o' < o

/-- Of the bodies of a sort, the one between `o` and `c` is the innermost around an index. -/
structure Innermost (Body : Nat → Nat → Nat → Prop) (i k o c : Nat) : Prop where
  body : Body k o c
  around : o < i ∧ i < c
  innermost : ∀ k' o' c', Body k' o' c' → o' < i → i < c' → o' ≤ o

/-- A kind declares a sort of type when it is the keyword of one. -/
theorem sortOf?_isSome_iff {kind : Kind} :
    (Declaration.sortOf? kind).isSome = true ↔ kind.isTypeKeyword = true := by
  cases kind with
  | keyword w => cases w <;> simp [Declaration.sortOf?, Kind.isTypeKeyword]
  | _ => simp [Declaration.sortOf?, Kind.isTypeKeyword]

/-- The keyword of a type is not that of a function. -/
theorem not_isFunctionKeyword_of_isTypeKeyword (h : s.has k Kind.isTypeKeyword = true) :
    s.has k isFunctionKeyword = false := by
  obtain ⟨kind, hkind, htype⟩ := (Option.any_eq_true _ _).1 h
  rw [has, hkind, Option.any_some]
  cases kind with
  | keyword w => cases w <;> first | rfl | cases htype
  | _ => cases htype

namespace NamedBody

/-- The name and the sort of what the keyword declares. -/
theorem exists_name (h : s.NamedBody k o c) :
    ∃ sort name, (s.kind? k).bind Declaration.sortOf? = some sort ∧
      s.declaredName? k = some name := by
  have hdeclares := h.declares
  simp only [isTypeDeclaration, Bool.and_eq_true] at hdeclares
  obtain ⟨⟨htype, -⟩, hname⟩ := hdeclares
  obtain ⟨kind, hkind, htype⟩ := (Option.any_eq_true _ _).1 htype
  obtain ⟨sort, hsort⟩ := Option.isSome_iff_exists.1 (sortOf?_isSome_iff.2 htype)
  obtain ⟨name, hname⟩ := Option.isSome_iff_exists.1 hname
  exact ⟨sort, name, by rw [hkind]; exact hsort, hname⟩

theorem endsHeader_opener (h : s.NamedBody k o c) : s.has o endsHeader = true :=
  has_of_isAt h.opener endsHeader

/-- A later keyword opens its body no earlier. -/
theorem opener_le {k' o' c' : Nat} (h : s.NamedBody k o c) (h' : s.NamedBody k' o' c')
    (hkk' : k ≤ k') : o ≤ o' := by
  by_contra hlt
  have hnone := h.first o' (Nat.lt_of_le_of_lt hkk' h'.lt) (Nat.lt_of_not_le hlt)
  rw [h'.endsHeader_opener] at hnone
  cases hnone

end NamedBody

theorem lt_size_of_isTypeDeclaration (h : s.isTypeDeclaration k = true) : k < s.size := by
  simp only [isTypeDeclaration, Bool.and_eq_true] at h
  exact lt_size_of_has h.1.1

/-- The look-up of a body finds that of a type with a name. -/
theorem namedBody_iff :
    s.NamedBody k o c ↔ s.isTypeDeclaration k = true ∧ s.body? k = some (o, c) := by
  have hstart (hdeclares : s.isTypeDeclaration k = true) :
      s.bodySearchStart? k = some (k + 1) := by
    simp only [isTypeDeclaration, Bool.and_eq_true] at hdeclares
    simp [bodySearchStart?, not_isFunctionKeyword_of_isTypeKeyword hdeclares.1.1]
  rw [body?_eq_some_iff]
  constructor
  · intro h
    have hfirst : s.findNext endsHeader (k + 1) = some o :=
      findNext_eq_some_iff.2 ⟨h.lt, h.endsHeader_opener, h.first⟩
    exact ⟨h.declares, k + 1, hstart h.declares, hfirst, h.opener, h.closer⟩
  · rintro ⟨hdeclares, start, hsearch, hfound, hopener, hcloser⟩
    cases (hstart hdeclares).symm.trans hsearch
    obtain ⟨hlt, -, hfirst⟩ := findNext_eq_some_iff.1 hfound
    exact ⟨hdeclares, hlt, hopener, hcloser, hfirst⟩

/-- The look-up takes the innermost named body. -/
theorem innermost_keywordAround? (h : SymbolTable.keywordAround? s i = some k) :
    ∃ o c, Innermost s.NamedBody i k o c := by
  obtain ⟨hfits, later, earlier, hsplit, hlater⟩ := List.find?_eq_some_iff_append.1 h
  simp only [Bool.and_eq_true] at hfits
  obtain ⟨hdeclares, hbody⟩ := hfits
  obtain ⟨⟨o, c⟩, hbody, hinside⟩ := (Option.any_eq_true _ _).1 hbody
  have hnamed : s.NamedBody k o c := namedBody_iff.2 ⟨hdeclares, hbody⟩
  refine ⟨o, c, hnamed, inside_iff.1 hinside, fun k' o' c' hnamed' ho' hc' => ?_⟩
  refine hnamed'.opener_le hnamed (Nat.le_of_not_lt fun hlt => ?_)
  -- A later keyword would stand in front of this one in the list and have been taken.
  have hmem : k' ∈ (List.range i).reverse := by
    have := hnamed'.lt
    rw [List.mem_reverse, List.mem_range]
    omega
  have hsorted : ((List.range i).reverse).Pairwise (· > ·) := by
    rw [List.pairwise_reverse]
    exact List.pairwise_lt_range
  rw [hsplit] at hmem hsorted
  have hrest := (List.pairwise_cons.1 (List.pairwise_append.1 hsorted).2.1).1
  rcases List.mem_append.1 hmem with hmem | hmem
  · have hnot := hlater k' hmem
    have hbody' := (namedBody_iff.1 hnamed').2
    simp [hnamed'.declares, hbody', inside_iff.2 ⟨ho', hc'⟩] at hnot
  · rcases List.mem_cons.1 hmem with rfl | hmem
    · omega
    · have := hrest k' hmem
      omega

/-! ## Anonymous classes around an index -/

/-- Whether an anonymous class lies closest around an index is decided by the keywords before it. -/
theorem inAnonymous_iff :
    InAnonymous s i ↔ ∃ k, k < i ∧ s.startsAnonymous k = true ∧ ∃ body ∈ s.ownBodies k,
      inside i body = true ∧ ∀ k', k' < i → s.isTypeDeclaration k' = true →
        (s.body? k').all fun body' => inside i body' → body'.1 < body.1 := by
  simp only [mem_ownBodies_iff, Option.all_eq_true, decide_eq_true_eq, Prod.exists, Prod.forall,
    inside_iff]
  constructor
  · rintro ⟨k, o, c, hbody, ho, hc, houter⟩
    refine ⟨k, Nat.lt_trans hbody.own.lt ho, hbody.starts, o, c, hbody.own, ⟨ho, hc⟩, ?_⟩
    intro k' hk' hdeclares o' c' hbody' haround
    exact houter k' o' c' (namedBody_iff.2 ⟨hdeclares, hbody'⟩) haround.1 haround.2
  · rintro ⟨k, hk, hstarts, o, c, hown, haround, houter⟩
    refine ⟨k, o, c, ⟨hstarts, hown⟩, haround.1, haround.2, fun k' o' c' hbody' ho' hc' => ?_⟩
    have hk' : k' < i := Nat.lt_trans hbody'.lt ho'
    exact houter k' hk' hbody'.declares o' c' (namedBody_iff.1 hbody').2 ⟨ho', hc'⟩

instance (s : TokenStream) (i : Nat) : Decidable (InAnonymous s i) :=
  decidable_of_iff _ inAnonymous_iff.symm

/-- Outside of anonymous classes the innermost named body is the innermost of all. -/
theorem innermost_typeBody {k o c : Nat} (h : Innermost s.NamedBody i k o c)
    (hnamed : ¬InAnonymous s i) : Innermost (TypeBody s) i k o c := by
  refine ⟨.inl h.body, h.around, fun k' o' c' hbody ho' hc' => ?_⟩
  rcases hbody with hbody | hbody
  · exact h.innermost k' o' c' hbody ho' hc'
  · by_contra hlt
    refine hnamed ⟨k', o', c', hbody, ho', hc', fun k'' o'' c'' hbody' ho'' hc'' => ?_⟩
    have := h.innermost k'' o'' c'' hbody' ho'' hc''
    omega

end PhpLint.TokenStream

namespace PhpLint.SymbolTable

open TokenStream

variable {t : SymbolTable} {s : TokenStream} {i : Nat}

/-- Files add what they declare, in their order. -/
theorem symbols_foldl_addFile (t : SymbolTable) (streams : List TokenStream) :
    (streams.foldl addFile t).symbols = t.symbols ++ streams.flatMap Declaration.ofStream := by
  induction streams generalizing t with
  | nil => simp
  | cons s streams ih => rw [List.foldl_cons, ih]; simp [addFile]

/-- A table holds what the files declare, in their order. -/
theorem symbols_ofStreams (streams : List TokenStream) :
    (ofStreams streams).symbols = streams.flatMap Declaration.ofStream := by
  rw [ofStreams, symbols_foldl_addFile]
  rfl

/-- Separators in front of a name do not matter to a look-up. -/
theorem get?_stripLeading (t : SymbolTable) (name : Text) :
    t.get? (stripLeading name) = t.get? name := by
  simp [get?, stripLeading, Text.trimStartOf, List.dropWhile_idempotent]

/-- A name without a separator in front stays as it is. -/
theorem stripLeading_of_head?_ne {name : Text} (h : name.head? ≠ some '\\') :
    stripLeading name = name := by
  cases name with
  | nil => rfl
  | cons c rest => exact Text.trimStartOf_cons (by simpa using h) rest

/-- What a look-up finds has the name, up to case. -/
theorem sameLetters_of_get? {name : Text} {symbol : TypeSymbol} (h : t.get? name = some symbol) :
    Text.sameLetters symbol.name (stripLeading name) = true := by
  simpa using List.find?_some h

/-- A declaration is in force for its own name if it is for any. -/
theorem get?_name {name : Text} {symbol : TypeSymbol} (h : t.get? name = some symbol) :
    t.get? symbol.name = some symbol := by
  rw [get?_congr (sameLetters_of_get? h), get?_stripLeading, h]

/-- Where no two declarations have one name, each is in force for its own. -/
theorem get?_eq_some_of_nodup {name : Text} {symbol : TypeSymbol}
    (h : (t.symbols.map (Text.foldCase ·.name)).Nodup) (hmem : symbol ∈ t.symbols)
    (hsame : Text.sameLetters symbol.name (stripLeading name) = true) :
    t.get? name = some symbol := by
  have hsome : (t.get? name).isSome = true :=
    List.find?_isSome.2 ⟨symbol, List.mem_reverse.2 hmem, hsame⟩
  obtain ⟨other, hget⟩ := Option.isSome_iff_exists.1 hsome
  -- What is found has the name too, and only one declaration has it.
  have hboth : Text.foldCase other.name = Text.foldCase symbol.name :=
    Text.sameLetters_iff.1
      (Text.sameLetters_trans (sameLetters_of_get? hget) (Text.sameLetters_symm hsame))
  rw [hget, List.inj_on_of_nodup_map h (mem_symbols_of_get? hget) hmem hboth]

/-- The declaration that a named body belongs to. -/
theorem exists_read? {k o c : Nat} (h : s.NamedBody k o c) (scope : NameScope) :
    ∃ name own, s.declaredName? k = some name ∧ Declaration.read? s scope k = some own ∧
      own.name = scope.qualify name k := by
  obtain ⟨sort, name, hsort, hname⟩ := h.exists_name
  have hnamed : (Declaration.read? s scope k).map TypeSymbol.name = some (scope.qualify name k) := by
    simp [Declaration.read?, hsort, hname, (namedBody_iff.1 h).2]
  obtain ⟨own, hread, hown⟩ := Option.map_eq_some_iff.1 hnamed
  exact ⟨name, own, hname, hread, hown⟩

/-- What a keyword of a file declares is a declaration of the table. -/
theorem mem_symbols_of_read? {streams : List TokenStream} {k : Nat} {own : TypeSymbol}
    (hstream : s ∈ streams) (hdeclares : s.isTypeDeclaration k = true)
    (hread : Declaration.read? s (NameScope.ofStream s) k = some own) :
    own ∈ (ofStreams streams).symbols := by
  have hk := lt_size_of_isTypeDeclaration hdeclares
  have hmem : k ∈ (List.range s.size).filter s.isTypeDeclaration :=
    List.mem_filter.2 ⟨List.mem_range.2 hk, hdeclares⟩
  rw [symbols_ofStreams]
  exact List.mem_flatMap.2 ⟨s, hstream, List.mem_filterMap.2 ⟨k, hmem, hread⟩⟩

/-- **The type around an index is declared there.**  The look-up answers the declaration in force
for the name of the innermost named type around the index, and the table knows what that type
declares. -/
theorem exists_of_typeAt? {streams : List TokenStream} (hstream : s ∈ streams) {symbol : TypeSymbol}
    (h : (ofStreams streams).typeAt? s i = some symbol) :
    ∃ k o c own, Innermost s.NamedBody i k o c ∧
      Declaration.read? s (NameScope.ofStream s) k = some own ∧
      own ∈ (ofStreams streams).symbols ∧ (ofStreams streams).get? own.name = some symbol := by
  simp only [typeAt?, Option.bind_eq_bind, Option.bind_eq_some_iff] at h
  obtain ⟨k, hk, name, hname, hget⟩ := h
  obtain ⟨o, c, hinner⟩ := innermost_keywordAround? hk
  obtain ⟨name', own, hname', hread, hown⟩ := exists_read? hinner.body (NameScope.ofStream s)
  obtain rfl := Option.some.inj (hname.symm.trans hname')
  rw [← hown] at hget
  exact ⟨k, o, c, own, hinner, hread, mem_symbols_of_read? hstream hinner.body.declares hread, hget⟩

end PhpLint.SymbolTable

import PhpLint.Proofs.Lexing.Layout
import PhpLint.Proofs.Symbols.Comparison
import PhpLint.Proofs.Symbols.Enclosing

/-!
# The order of the files

A declaration is stored under its name, and a later one with that name takes its place.  So a look-up
answers the last declaration of the name in the order of the files and, in a file, of the keywords
(`answersLast_get?`).  Without two declarations of one name nothing is replaced: a look-up answers
the one declaration that has the name (`get?_eq_some_iff`), wherever it stands, and every answer that
goes through look-ups is the same for all orders of the files (`sameAnswers_of_perm`).
-/

namespace List

variable {α : Type*}

/-- In a list in strict order, a search from the end finds the element that fits and stands behind
all others that do. -/
theorem find?_reverse_eq_some_iff {r : α → α → Prop} {p : α → Bool} {xs : List α} {x : α}
    (hasymm : ∀ a b, r a b → ¬r b a) (hsorted : xs.Pairwise r) :
    xs.reverse.find? p = some x ↔ x ∈ xs ∧ p x = true ∧ ∀ y ∈ xs, p y = true → y = x ∨ r y x := by
  rw [find?_eq_some_iff_append]
  constructor
  · rintro ⟨hx, after, before, hsplit, hafter⟩
    obtain rfl : xs = before.reverse ++ x :: after.reverse := by
      rw [← reverse_reverse xs, hsplit]
      simp
    refine ⟨by simp, hx, fun y hy hfits => ?_⟩
    rcases mem_append.1 hy with hy | hy
    · exact .inr ((pairwise_append.1 hsorted).2.2 y hy x mem_cons_self)
    · rcases mem_cons.1 hy with rfl | hy
      · exact .inl rfl
      · have hnot := hafter y (mem_reverse.1 hy)
        simp [hfits] at hnot
  · rintro ⟨hmem, hx, hlast⟩
    obtain ⟨before, after, rfl⟩ := append_of_mem hmem
    refine ⟨hx, after.reverse, before.reverse, by simp, fun y hy => ?_⟩
    have hxy : r x y := (pairwise_cons.1 (pairwise_append.1 hsorted).2.1).1 y (mem_reverse.1 hy)
    by_contra hfits
    rcases hlast y (by simp [mem_reverse.1 hy]) (by simpa using hfits) with rfl | hyx
    · exact hasymm y y hxy hxy
    · exact hasymm x y hxy hyx

/-- A list without duplicates stays as it is. -/
theorem eraseDups_of_nodup [BEq α] [LawfulBEq α] {xs : List α} (h : xs.Nodup) :
    xs.eraseDups = xs := by
  induction xs with
  | nil => rfl
  | cons x xs ih =>
    obtain ⟨hx, hxs⟩ := nodup_cons.1 h
    have hkeep : xs.filter (fun y => !y == x) = xs := by
      refine filter_eq_self.2 fun y hy => ?_
      have hne : y ≠ x := fun heq => hx (heq ▸ hy)
      simpa using hne
    rw [eraseDups_cons, hkeep, ih hxs]

end List

namespace PhpLint

namespace SymbolTable

variable {t t' : SymbolTable} {streams streams' : List TokenStream} {name : Text}
  {symbol : TypeSymbol}

/-! ## Where declarations stand -/

/-- A declaration and where it stands: the number of its file and the index of its keyword there. -/
structure Placed where
  file : Nat
  keyword : Nat
  symbol : TypeSymbol

/-- The one stands in an earlier file, or in the same file with an earlier keyword. -/
def Placed.Before (a b : Placed) : Prop :=
  a.file < b.file ∨ a.file = b.file ∧ a.keyword < b.keyword

/-- The keyword at the place declares the type. -/
def Declared (streams : List TokenStream) (a : Placed) : Prop :=
  ∃ s, streams[a.file]? = some s ∧ s.isTypeDeclaration a.keyword = true ∧
    Declaration.read? s (NameScope.ofStream s) a.keyword = some a.symbol

/-- The declarations of a file, with their places. -/
def placedIn (file : Nat) (s : TokenStream) : List Placed :=
  ((List.range s.size).filter s.isTypeDeclaration).filterMap fun k =>
    (Declaration.read? s (NameScope.ofStream s) k).map (Placed.mk file k)

/-- The declarations of all files, with their places. -/
def placed (streams : List TokenStream) : List Placed :=
  streams.zipIdx.flatMap fun entry => placedIn entry.2 entry.1

/-- Without their places stand the declarations of the file. -/
theorem map_symbol_placedIn (file : Nat) (s : TokenStream) :
    (placedIn file s).map Placed.symbol = Declaration.ofStream s := by
  simp [placedIn, Declaration.ofStream, List.map_filterMap, Option.map_map, Function.comp_def]

/-- Without their places stand the declarations of the table. -/
theorem map_symbol_placed (streams : List TokenStream) :
    (placed streams).map Placed.symbol = (ofStreams streams).symbols := by
  rw [symbols_ofStreams, placed, List.map_flatMap]
  simp only [map_symbol_placedIn]
  rw [← List.flatMap_map (f := Prod.fst) (g := Declaration.ofStream), List.zipIdx_map_fst]

/-- A declaration is placed in a file when its keyword declares it there. -/
theorem mem_placedIn_iff {file : Nat} {s : TokenStream} {a : Placed} :
    a ∈ placedIn file s ↔ a.file = file ∧ s.isTypeDeclaration a.keyword = true ∧
      Declaration.read? s (NameScope.ofStream s) a.keyword = some a.symbol := by
  simp only [placedIn, List.mem_filterMap, List.mem_filter, List.mem_range, Option.map_eq_some_iff]
  constructor
  · rintro ⟨k, ⟨-, hdeclares⟩, symbol, hread, rfl⟩
    exact ⟨rfl, hdeclares, hread⟩
  · rintro ⟨rfl, hdeclares, hread⟩
    have hsize := TokenStream.lt_size_of_isTypeDeclaration hdeclares
    exact ⟨a.keyword, ⟨hsize, hdeclares⟩, a.symbol, hread, rfl⟩

/-- The declarations with places are those that are declared. -/
theorem mem_placed_iff {a : Placed} : a ∈ placed streams ↔ Declared streams a := by
  simp only [placed, List.mem_flatMap, mem_placedIn_iff, Prod.exists, List.mem_zipIdx_iff_getElem?]
  constructor
  · rintro ⟨s, file, hs, rfl, hdeclares⟩
    exact ⟨s, hs, hdeclares⟩
  · rintro ⟨s, hs, hdeclares⟩
    exact ⟨s, a.file, hs, rfl, hdeclares⟩

/-- Declarations are placed one before another. -/
theorem pairwise_placed (streams : List TokenStream) : (placed streams).Pairwise Placed.Before := by
  unfold placed
  rw [List.pairwise_flatMap]
  constructor
  · rintro ⟨s, file⟩ -
    refine (List.pairwise_lt_range.filter _).filterMap _ fun k k' hlt a ha b hb => ?_
    obtain ⟨_, -, rfl⟩ := Option.map_eq_some_iff.1 ha
    obtain ⟨_, -, rfl⟩ := Option.map_eq_some_iff.1 hb
    exact .inr ⟨rfl, hlt⟩
  · have hfiles : (streams.zipIdx.map Prod.snd).Pairwise (· < ·) := by
      rw [List.zipIdx_map_snd]
      exact List.pairwise_lt_range'
    refine (List.pairwise_map.1 hfiles).imp fun hlt a ha b hb => .inl ?_
    rw [(mem_placedIn_iff.1 ha).1, (mem_placedIn_iff.1 hb).1]
    exact hlt

/-! ## The last declaration of a name -/

/-- An answer about a name: the last declaration of the name in the order of the files and their
keywords, none exactly if no file declares the name. -/
structure AnswersLast (streams : List TokenStream) (name : Text) (answer : Option TypeSymbol) :
    Prop where
  some_iff : ∀ symbol, answer = some symbol ↔ ∃ a, Declared streams a ∧ a.symbol = symbol ∧
    Text.sameLetters a.symbol.name name = true ∧
    ∀ b, Declared streams b → Text.sameLetters b.symbol.name name = true → b = a ∨ b.Before a
  none_iff : answer = none ↔
    ∀ a, Declared streams a → Text.sameLetters a.symbol.name name = false

/-- **A look-up answers the last declaration of the name.**. -/
theorem answersLast_get? (hname : name.head? ≠ some '\\') :
    AnswersLast streams name ((ofStreams streams).get? name) := by
  have hstrip := stripLeading_of_head?_ne hname
  have hget : (ofStreams streams).get? name =
      ((placed streams).reverse.find? (Text.sameLetters ·.symbol.name name)).map Placed.symbol := by
    rw [get?, hstrip, ← map_symbol_placed, ← List.map_reverse, List.find?_map, Function.comp_def]
  have hbefore (a b : Placed) (hab : a.Before b) : ¬b.Before a := by
    unfold Placed.Before at *
    omega
  constructor
  case some_iff =>
    intro symbol
    rw [hget, Option.map_eq_some_iff]
    refine exists_congr fun a => ?_
    rw [List.find?_reverse_eq_some_iff hbefore (pairwise_placed streams)]
    simp only [mem_placed_iff]
    tauto
  case none_iff =>
    rw [hget, Option.map_eq_none_iff, List.find?_eq_none]
    simp only [List.mem_reverse, mem_placed_iff, Bool.not_eq_true]

/-! ## Every order of the files -/

/-- No two declarations of a table have one name, whatever the case of its letters. -/
def Unambiguous (t : SymbolTable) : Prop := (t.symbols.map (Text.foldCase ·.name)).Nodup

/-- The one declaration of a name is in force. -/
theorem get?_eq_some_iff (h : t.Unambiguous) :
    t.get? name = some symbol ↔
      symbol ∈ t.symbols ∧ Text.sameLetters symbol.name (stripLeading name) = true := by
  constructor
  · intro hget
    exact ⟨mem_symbols_of_get? hget, sameLetters_of_get? hget⟩
  · rintro ⟨hmem, hsame⟩
    exact get?_eq_some_of_nodup h hmem hsame

/-- Both tables answer every question alike. -/
structure SameAnswers (t t' : SymbolTable) : Prop where
  size : t.size = t'.size
  get? : ∀ name, t.get? name = t'.get? name
  typeAt : ∀ s i, t.typeAtChecked s i = t'.typeAtChecked s i
  ancestors : ∀ c, t.ancestors c = t'.ancestors c
  inheritsMethod : ∀ c method, t.inheritsMethod c method = t'.inheritsMethod c method

/-- Tables with the same look-ups and the same names to refer to give the same answers. -/
theorem sameAnswers_of_get? (hsize : t.size = t'.size) (hget : ∀ name, t.get? name = t'.get? name)
    (hrefer : ∀ n, n ∈ t.allSupertypes ↔ n ∈ t'.allSupertypes) : SameAnswers t t' := by
  have hsame (m : Text) : Option.Rel (TypeSymbol.Alike Eq) (t.get? m) (t'.get? m) := by
    rw [hget m]
    cases t'.get? m with
    | none => exact .none
    | some symbol =>
      have hmethods : List.Forall₂ (fun m n => Text.sameLetters m n = true) symbol.methods
          symbol.methods := List.forall₂_same.2 fun m _ => Text.sameLetters_refl m
      exact .some ⟨List.forall₂_refl _, List.forall₂_refl _, hmethods⟩
  have halike : Alike Eq t t' := by
    constructor
    case spellings => exact keepsSpellings_eq
    case get? =>
      rintro m _ rfl
      exact hsame m
    case lists =>
      rintro m _ rfl
      simp only [Lists, hrefer]
  constructor
  case size => exact hsize
  case get? => exact hget
  case typeAt =>
    intro s i
    simp only [typeAtChecked, typeAt?, hget]
  case ancestors =>
    intro c
    obtain ⟨hnames, hcomplete⟩ := halike.ancestors_rel (hsame c)
    rw [List.forall₂_eq_eq_eq] at hnames
    exact Ancestry.ext hnames hcomplete
  case inheritsMethod =>
    exact fun c method => halike.inheritsMethod_eq (hsame c) (Text.sameLetters_refl method)

/-- **The order of the files does not matter** where no name is declared twice. -/
theorem sameAnswers_of_perm (hunambiguous : (ofStreams streams).Unambiguous)
    (hperm : streams.Perm streams') : SameAnswers (ofStreams streams) (ofStreams streams') := by
  have hsymbols : (ofStreams streams).symbols.Perm (ofStreams streams').symbols := by
    rw [symbols_ofStreams, symbols_ofStreams]
    exact hperm.flatMap_right _
  have hnames := hsymbols.map (Text.foldCase ·.name)
  have hunambiguous' : (ofStreams streams').Unambiguous := hnames.nodup_iff.1 hunambiguous
  refine sameAnswers_of_get? ?_ (fun name => ?_) fun n => ?_
  · rw [size, size, List.eraseDups_of_nodup hunambiguous, List.eraseDups_of_nodup hunambiguous',
      hnames.length_eq]
  · refine Option.ext fun symbol => ?_
    rw [get?_eq_some_iff hunambiguous, get?_eq_some_iff hunambiguous', hsymbols.mem_iff]
  · exact (hsymbols.flatMap_right _).mem_iff

/-- **The order of the files does not matter without duplicates.**  Files that declare no name twice
give tables with the same answers in every order; and whatever the files declare, a look-up answers
the last declaration of the name. -/
theorem ofStreams_order (streams : List TokenStream) :
    ((ofStreams streams).Unambiguous → ∀ streams', streams.Perm streams' →
      SameAnswers (ofStreams streams) (ofStreams streams')) ∧
    ∀ name : Text, name.head? ≠ some '\\' →
      AnswersLast streams name ((ofStreams streams).get? name) :=
  ⟨fun hunambiguous _ hperm => sameAnswers_of_perm hunambiguous hperm,
    fun _ hname => answersLast_get? hname⟩

/-- A class and its parent in two files, in either order; and a third file that declares the parent
again, in other letters, whose declaration is in force when it comes last. -/
theorem ofStreams_order_again :
    ∃ s s' s'', TokenStream.ofSource "<?php class A extends B \x7b\x7d".toList = .ok s ∧
      TokenStream.ofSource "<?php class B \x7b function f() \x7b\x7d \x7d".toList = .ok s' ∧
      TokenStream.ofSource "<?php interface b \x7b\x7d".toList = .ok s'' ∧
      (ofStreams [s, s']).Unambiguous ∧ [s, s'].Perm [s', s] ∧
      SameAnswers (ofStreams [s, s']) (ofStreams [s', s]) ∧ ['B'].head? ≠ some '\\' ∧
      (ofStreams [s', s'']).get? ['B'] = some ⟨['b'], .interfaceType, [], [], [], []⟩ ∧
      AnswersLast [s', s''] ['B'] ((ofStreams [s', s'']).get? ['B']) := by
  have hfirst : (TokenStream.ofSource "<?php class A extends B \x7b\x7d".toList).map
      Declaration.ofStream = .ok [⟨['A'], .classType, [['B']], [], [], []⟩] := by
    decide +kernel
  have hsecond : (TokenStream.ofSource
      "<?php class B \x7b function f() \x7b\x7d \x7d".toList).map Declaration.ofStream =
        .ok [⟨['B'], .classType, [], [], [], [['f']]⟩] := by
    decide +kernel
  have hthird : (TokenStream.ofSource "<?php interface b \x7b\x7d".toList).map
      Declaration.ofStream = .ok [⟨['b'], .interfaceType, [], [], [], []⟩] := by
    decide +kernel
  obtain ⟨s, hs, hdeclared⟩ := TokenStream.exists_of_map_ofSource hfirst
  obtain ⟨s', hs', hdeclared'⟩ := TokenStream.exists_of_map_ofSource hsecond
  obtain ⟨s'', hs'', hdeclared''⟩ := TokenStream.exists_of_map_ofSource hthird
  have hunambiguous : (ofStreams [s, s']).Unambiguous := by
    simp only [Unambiguous, symbols_ofStreams, List.flatMap_cons, List.flatMap_nil, hdeclared,
      hdeclared']
    decide
  have hget : (ofStreams [s', s'']).get? ['B'] =
      some ⟨['b'], .interfaceType, [], [], [], []⟩ := by
    simp only [get?, symbols_ofStreams, List.flatMap_cons, List.flatMap_nil, hdeclared',
      hdeclared'']
    decide
  have hperm : [s, s'].Perm [s', s] := List.Perm.swap s' s []
  exact ⟨s, s', s'', hs, hs', hs'', hunambiguous, hperm,
    (ofStreams_order [s, s']).1 hunambiguous _ hperm, by decide, hget,
    (ofStreams_order [s', s'']).2 ['B'] (by decide)⟩

end SymbolTable

end PhpLint

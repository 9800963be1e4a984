import PhpLint.Proofs.LetterCase.Declaration
import PhpLint.Proofs.Lexing.Layout
import PhpLint.Proofs.Symbols.Comparison
import PhpLint.Proofs.Symbols.Enclosing

/-!
# The case of letters does not matter to the table

Files that differ in the case of letters become the same when their letters are folded, and so do
their tables, because folding the files folds the table (`ofStreams_map_foldCase`).  Two tables that
become the same have declarations for the same names, up to case, that refer to the same names, up to
case, and that is all it takes for two tables to answer alike.
-/

namespace List

variable {α β : Type} {f : α → β} {xs ys : List α}

/-- Lists agree under a function one by one when their images are equal. -/
theorem forall₂_iff_map_eq : Forall₂ (fun a b => f a = f b) xs ys ↔ xs.map f = ys.map f := by
  rw [← forall₂_eq_eq_eq, forall₂_map_left_iff, forall₂_map_right_iff]

end List

namespace PhpLint

/-! ## Streams up to case -/

/-- The same token, up to the case of the letters in its text. -/
structure Token.SameButCase (t t' : Token) : Prop where
  kind : t.kind = t'.kind
  content : Text.sameLetters t.content t'.content = true
  line : t.line = t'.line
  column : t.column = t'.column
  offset : t.offset = t'.offset

/-- Tokens are the same up to case when they fold to the same. -/
theorem Token.sameButCase_iff {t t' : Token} : t.SameButCase t' ↔ t.foldCase = t'.foldCase := by
  constructor
  · intro ⟨hkind, hcontent, hline, hcolumn, hoffset⟩
    rw [Token.foldCase, Token.foldCase, hkind, Text.sameLetters_iff.1 hcontent, hline, hcolumn,
      hoffset]
  · intro h
    obtain ⟨hkind, hcontent, hline, hcolumn, hoffset⟩ := Token.mk.inj h
    exact ⟨hkind, Text.sameLetters_iff.2 hcontent, hline, hcolumn, hoffset⟩

namespace TokenStream

/-- The same tokens, up to the case of the letters in their texts. -/
def SameButCase (s s' : TokenStream) : Prop :=
  List.Forall₂ Token.SameButCase s.tokens.toList s'.tokens.toList

variable {s s' : TokenStream}

/-- Streams are the same up to case when their tokens fold to the same. -/
theorem sameButCase_iff :
    s.SameButCase s' ↔
      s.tokens.toList.map Token.foldCase = s'.tokens.toList.map Token.foldCase := by
  rw [← List.forall₂_iff_map_eq]
  exact ⟨fun h => h.imp fun _ _ => Token.sameButCase_iff.1,
    fun h => h.imp fun _ _ => Token.sameButCase_iff.2⟩

/-- Streams that are the same up to case fold to one stream. -/
theorem foldCase_eq_of_sameButCase (h : s.SameButCase s') : s.foldCase = s'.foldCase := by
  have htokens : s.tokens.map Token.foldCase = s'.tokens.map Token.foldCase := by
    rw [← Array.toList_inj, Array.toList_map, Array.toList_map]
    exact sameButCase_iff.1 h
  simp only [foldCase, htokens]

/-- A source whose tokens become those of a stream when the letters of both are folded. -/
theorem exists_sameButCase {source source' : Text} (hs : ofSource source = .ok s)
    (h : (ofSource source').map (fun s => s.tokens.toList.map Token.foldCase) =
      (ofSource source).map fun s => s.tokens.toList.map Token.foldCase) :
    ∃ s', ofSource source' = .ok s' ∧ s.SameButCase s' := by
  rw [hs] at h
  obtain ⟨s', hs', hfolded⟩ := exists_of_map_ofSource h
  exact ⟨s', hs', sameButCase_iff.2 hfolded.symm⟩

end TokenStream

/-! ## Names up to case -/

/-- Names are the same up to case, one by one, when they fold to the same names. -/
theorem forall₂_sameLetters_iff {xs ys : List Text} :
    List.Forall₂ (fun m n => Text.sameLetters m n = true) xs ys ↔
      xs.map Text.foldCase = ys.map Text.foldCase := by
  simp only [Text.sameLetters_iff, List.forall₂_iff_map_eq]

theorem sameName_of_sameLetters {m n : Text} (h : Text.sameLetters m n = true) : SameName m n := by
  rw [SameName, Text.sameLetters_iff, foldCase_stripLeading, foldCase_stripLeading,
    Text.sameLetters_iff.1 h]

namespace TypeSymbol

/-- A folded declaration refers to the folded names. -/
theorem supertypes_foldCase (symbol : TypeSymbol) :
    symbol.foldCase.supertypes = symbol.supertypes.map Text.foldCase :=
  List.map_append.symm

/-- Declarations that fold to the same are alike. -/
theorem alike_of_foldCase_eq {x y : TypeSymbol} (h : x.foldCase = y.foldCase) :
    Alike (fun m n => Text.sameLetters m n = true) x y := by
  constructor
  case supertypes =>
    rw [forall₂_sameLetters_iff, ← supertypes_foldCase, ← supertypes_foldCase, h]
  case traits => exact forall₂_sameLetters_iff.2 (congrArg TypeSymbol.traits h)
  case methods => exact forall₂_sameLetters_iff.2 (congrArg TypeSymbol.methods h)

end TypeSymbol

namespace SymbolTable

variable {t t' : SymbolTable} {c c' m n method method' : Text}

/-- The table with the letters of all its declarations folded. -/
def foldCase (t : SymbolTable) : SymbolTable := ⟨t.symbols.map TypeSymbol.foldCase⟩

/-- The table of the folded files is the folded table. -/
theorem ofStreams_map_foldCase (streams : List TokenStream) :
    ofStreams (streams.map TokenStream.foldCase) = (ofStreams streams).foldCase := by
  have hsymbols : (ofStreams (streams.map TokenStream.foldCase)).symbols =
      (ofStreams streams).symbols.map TypeSymbol.foldCase := by
    rw [symbols_ofStreams, symbols_ofStreams, List.flatMap_map, List.map_flatMap]
    simp only [Declaration.ofStream_foldCase]
  exact congrArg SymbolTable.mk hsymbols

/-- One name in two spellings finds one declaration. -/
theorem get?_of_sameName (h : SameName m n) : t.get? m = t.get? n := by
  simp only [get?, Text.sameLetters, Text.sameLetters_iff.1 h]

/-- In the folded table a name finds the folded declaration. -/
theorem get?_foldCase (t : SymbolTable) (name : Text) :
    t.foldCase.get? name = (t.get? name).map TypeSymbol.foldCase := by
  have hfits : (Text.sameLetters ·.name (stripLeading name)) ∘ TypeSymbol.foldCase =
      (Text.sameLetters ·.name (stripLeading name)) :=
    funext fun symbol => Text.sameLetters_foldCase_left symbol.name (stripLeading name)
  rw [get?, get?, foldCase, ← List.map_reverse, List.find?_map, hfits]

/-- The folded table refers to the folded names. -/
theorem allSupertypes_foldCase (t : SymbolTable) :
    t.foldCase.allSupertypes = t.allSupertypes.map Text.foldCase := by
  rw [allSupertypes, allSupertypes, foldCase, List.flatMap_map, List.map_flatMap]
  simp only [TypeSymbol.supertypes_foldCase]

/-- Tables that become the same have declarations that become the same for a name in two spellings. -/
theorem rel_get?_of_foldCase_eq (h : t.foldCase = t'.foldCase) (hname : SameName c c') :
    Option.Rel (TypeSymbol.Alike fun m n => Text.sameLetters m n = true) (t.get? c) (t'.get? c') := by
  have hget : (t.get? c).map TypeSymbol.foldCase = (t'.get? c').map TypeSymbol.foldCase := by
    rw [← get?_foldCase, ← get?_foldCase, h, get?_of_sameName hname]
  cases hx : t.get? c with
  | none =>
    rw [hx, Option.map_none, eq_comm, Option.map_eq_none_iff] at hget
    rw [hget]
    exact .none
  | some x =>
    rw [hx, Option.map_some, eq_comm, Option.map_eq_some_iff] at hget
    obtain ⟨y, hy, heq⟩ := hget
    rw [hy]
    exact .some (TypeSymbol.alike_of_foldCase_eq heq.symm)

/-- Tables that fold to the same are alike. -/
theorem alike_of_foldCase_eq (h : t.foldCase = t'.foldCase) :
    Alike (fun m n => Text.sameLetters m n = true) t t' := by
  constructor
  case spellings => exact keepsSpellings_sameLetters
  case get? => exact fun m n hsame => rel_get?_of_foldCase_eq h (sameName_of_sameLetters hsame)
  case lists =>
    have hall : List.Forall₂ (fun m n => Text.sameLetters m n = true) t.allSupertypes
        t'.allSupertypes := by
      rw [forall₂_sameLetters_iff, ← allSupertypes_foldCase, ← allSupertypes_foldCase, h]
    exact fun m n hsame => lists_iff_of_forall₂ keepsSpellings_sameLetters hall hsame

/-- What two tables answer about a class and a method is the same up to the case of letters. -/
structure AnswersButCase (t t' : SymbolTable) (c c' method method' : Text) : Prop where
  declared : (t.get? c).isSome = (t'.get? c').isSome
  inheritsMethod : t.inheritsMethod c method = t'.inheritsMethod c' method'
  ancestors : List.Forall₂ (fun m n => Text.sameLetters m n = true) (t.ancestors c).names
    (t'.ancestors c').names
  complete : (t.ancestors c).complete = (t'.ancestors c').complete

/-- **The case of letters never matters to the table.**  Files that differ in it alone give tables
that answer alike, whatever the case in which the class and the method are asked for and whether or
not separators stand in front of the class. -/
theorem ofStreams_sameButCase {streams streams' : List TokenStream}
    (h : List.Forall₂ TokenStream.SameButCase streams streams') (hname : SameName c c')
    (hmethod : Text.sameLetters method method' = true) :
    AnswersButCase (ofStreams streams) (ofStreams streams') c c' method method' := by
  have hstreams : streams.map TokenStream.foldCase = streams'.map TokenStream.foldCase :=
    List.forall₂_iff_map_eq.1 (h.imp fun _ _ => TokenStream.foldCase_eq_of_sameButCase)
  have htables : (ofStreams streams).foldCase = (ofStreams streams').foldCase := by
    rw [← ofStreams_map_foldCase, ← ofStreams_map_foldCase, hstreams]
  have halike := alike_of_foldCase_eq htables
  have hc := rel_get?_of_foldCase_eq htables hname
  obtain ⟨hnames, hcomplete⟩ := halike.ancestors_rel hc
  exact ⟨Option.isSome_eq_of_rel hc, halike.inheritsMethod_eq hc hmethod, hnames, hcomplete⟩

/-- A class and its parent, imported under an alias, in two spellings of each word that is no
keyword. -/
theorem ofStreams_sameButCase_alias :
    ∃ s s', TokenStream.ofSource
        "<?php use A as B;class A\x7bfunction f()\x7b\x7d\x7dclass C extends B\x7b\x7d".toList = .ok s ∧
      TokenStream.ofSource
        "<?php use a AS b;class a\x7bfunction F()\x7b\x7d\x7dclass c extends B\x7b\x7d".toList = .ok s' ∧
      List.Forall₂ TokenStream.SameButCase [s] [s'] ∧ SameName ['C'] ['\\', 'c'] ∧
      Text.sameLetters ['f'] ['F'] = true ∧ (ofStreams [s]).inheritsMethod ['C'] ['f'] = some true ∧
      AnswersButCase (ofStreams [s]) (ofStreams [s']) ['C'] ['\\', 'c'] ['f'] ['F'] := by
  have hknown : (TokenStream.ofSource
      "<?php use A as B;class A\x7bfunction f()\x7b\x7d\x7dclass C extends B\x7b\x7d".toList).map
        (fun s => (ofStreams [s]).inheritsMethod ['C'] ['f']) = .ok (some true) := by
    decide +kernel
  have hfolded : (TokenStream.ofSource
      "<?php use a AS b;class a\x7bfunction F()\x7b\x7d\x7dclass c extends B\x7b\x7d".toList).map
        (fun s => s.tokens.toList.map Token.foldCase) =
      (TokenStream.ofSource
        "<?php use A as B;class A\x7bfunction f()\x7b\x7d\x7dclass C extends B\x7b\x7d".toList).map
        (fun s => s.tokens.toList.map Token.foldCase) := by
    decide +kernel
  obtain ⟨s, hs, hinherits⟩ := TokenStream.exists_of_map_ofSource hknown
  obtain ⟨s', hs', hsame⟩ := TokenStream.exists_sameButCase hs hfolded
  have hstreams : List.Forall₂ TokenStream.SameButCase [s] [s'] := .cons hsame .nil
  have hname : SameName ['C'] ['\\', 'c'] := by
    unfold SameName
    decide
  have hmethod : Text.sameLetters ['f'] ['F'] = true := by decide
  exact ⟨s, s', hs, hs', hstreams, hname, hmethod, hinherits,
    ofStreams_sameButCase hstreams hname hmethod⟩

end SymbolTable

end PhpLint

import PhpLint.Proofs.Lexing.Layout
import PhpLint.Proofs.Symbols.Comparison
import PhpLint.Proofs.Symbols.Enclosing

/-!
# Knowing more files

A table that gets the declarations of further files keeps what it has decided, as long as none of
them declares a name again.  All that this needs of the larger table is that it finds whatever the
smaller one finds (`Extends`).

Every step between names then stays a step, so a method that is inherited stays inherited.  The other
way round, a step of the larger table from a name that the smaller one knows is a step of the smaller
one.  An answer no and a complete ancestry say that all names concerned are known, so from there
nothing new is ever reached (`Extends.leads_of_known`, `Extends.uses_of_known`).
-/

namespace PhpLint.SymbolTable

variable {t t' : SymbolTable} {c method : Text}

/-- The second table finds every declaration that the first one finds. -/
def Extends (t t' : SymbolTable) : Prop :=
  ∀ name symbol, t.get? name = some symbol → t'.get? name = some symbol

namespace Extends

/-! ## What stays -/

/-- What is known stays known. -/
theorem isSome (h : t.Extends t') {n : Text} (hn : (t.get? n).isSome) : (t'.get? n).isSome := by
  obtain ⟨symbol, hget⟩ := Option.isSome_iff_exists.1 hn
  rw [h n symbol hget]
  rfl

/-- A name that is known has the declaration that it had. -/
theorem get?_eq (h : t.Extends t') {n : Text} (hn : (t.get? n).isSome) : t'.get? n = t.get? n := by
  obtain ⟨symbol, hget⟩ := Option.isSome_iff_exists.1 hn
  rw [hget, h n symbol hget]

/-- The parents and interfaces of what is known stay the same. -/
theorem supertypesOf_eq (h : t.Extends t') {n : Text} (hn : (t.get? n).isSome) :
    t'.supertypesOf n = t.supertypesOf n := by
  rw [supertypesOf, supertypesOf, h.get?_eq hn]

theorem traitsOf_eq (h : t.Extends t') {n : Text} (hn : (t.get? n).isSome) :
    t'.traitsOf n = t.traitsOf n := by
  rw [traitsOf, traitsOf, h.get?_eq hn]

theorem refersTo (h : t.Extends t') {m n : Text} (hn : t.RefersTo m n) : t'.RefersTo m n := by
  obtain ⟨symbol, hget, hmem⟩ := hn
  exact ⟨symbol, h m symbol hget, hmem⟩

/-- A known name refers to nothing that it did not refer to. -/
theorem refersTo_of_known (h : t.Extends t') {m n : Text} (hm : (t.get? m).isSome)
    (hn : t'.RefersTo m n) : t.RefersTo m n := by
  rwa [RefersTo, h.get?_eq hm] at hn

/-- A name that leads to another still does. -/
theorem leads (h : t.Extends t') {k : Nat} {n : Text} (hn : t.Leads c k n) : t'.Leads c k n := by
  induction hn with
  | direct hn => exact .direct (h.refersTo hn)
  | step _ hn ih => exact ih.step (h.refersTo hn)

theorem isAncestor (h : t.Extends t') {a : Text} (ha : t.IsAncestor c a) : t'.IsAncestor c a := by
  obtain ⟨k, hleads⟩ := ha
  exact ⟨k, h.leads hleads⟩

/-- A name that uses another still does. -/
theorem uses (h : t.Extends t') {k : Nat} {m n : Text} (hn : t.Uses k m n) : t'.Uses k m n := by
  induction hn with
  | refl m => exact .refl m
  | @step k m used n hused huses ih =>
    have hm : (t.get? m).isSome := isSome_of_uses_succ (.step hused huses)
    rw [← h.traitsOf_eq hm] at hused
    exact .step hused ih

/-- A method that is declared still is. -/
theorem declares (h : t.Extends t') {n : Text} (hn : t.Declares method n) :
    t'.Declares method n := by
  obtain ⟨symbol, hget, hdeclares⟩ := hn
  exact ⟨symbol, h n symbol hget, hdeclares⟩

/-- A method that is inherited still is. -/
theorem inherits (h : t.Extends t') (hc : t.Inherits c method) : t'.Inherits c method := by
  obtain ⟨hknown, a, ha, k, hk, n, huses, hn⟩ := hc
  exact ⟨h.isSome hknown, a, h.isAncestor ha, k, hk, n, h.uses huses, h.declares hn⟩

/-! ## What is not new -/

/-- A type whose ancestors are all known leads to nothing else. -/
theorem leads_of_known (h : t.Extends t') (hc : (t.get? c).isSome)
    (hknown : ∀ a, t.IsAncestor c a → (t.get? a).isSome) {k : Nat} {n : Text}
    (hn : t'.Leads c k n) : t.Leads c k n := by
  induction hn with
  | direct hn => exact .direct (h.refersTo_of_known hc hn)
  | step _ hn ih => exact ih.step (h.refersTo_of_known (hknown _ ⟨_, ih⟩) hn)

/-- A type uses nothing else if all that it uses, in however many steps, is known. -/
theorem uses_of_known (h : t.Extends t') {k : Nat} {m n : Text}
    (hknown : ∀ k n, t.Uses k m n → (t.get? n).isSome) (hn : t'.Uses k m n) : t.Uses k m n := by
  induction hn with
  | refl m => exact .refl m
  | @step k m used n hused huses ih =>
    rw [h.traitsOf_eq (hknown 0 m (.refl m))] at hused
    exact .step hused (ih fun k n hn => hknown (k + 1) n (.step hused hn))

/-- A method that is ruled out still is. -/
theorem rulesOut (h : t.Extends t') (hc : t.RulesOut c method) : t'.RulesOut c method := by
  have hancestor (a : Text) (ha : t'.IsAncestor c a) : t.IsAncestor c a := by
    obtain ⟨k, hleads⟩ := ha
    exact ⟨k, h.leads_of_known hc.known hc.ancestors hleads⟩
  have huses (a : Text) (ha : t'.IsAncestor c a) (k : Nat) (n : Text) (hn : t'.Uses k a n) :
      t.Uses k a n :=
    h.uses_of_known (fun k n hn => hc.traits a k n (hancestor a ha) hn) hn
  constructor
  case known => exact h.isSome hc.known
  case undeclared =>
    rintro ⟨-, a, ha, k, hk, n, hn, symbol, hget, hdeclares⟩
    have hn := huses a ha k n hn
    rw [h.get?_eq (hc.traits a k n (hancestor a ha) hn)] at hget
    exact hc.undeclared ⟨hc.known, a, hancestor a ha, k, hk, n, hn, symbol, hget, hdeclares⟩
  case ancestors => exact fun a ha => h.isSome (hc.ancestors a (hancestor a ha))
  case traits =>
    intro a k n ha hn
    exact h.isSome (hc.traits a k n (hancestor a ha) (huses a ha k n hn))
  case shallow => exact fun a n ha hn => hc.shallow a n (hancestor a ha) (huses a ha 17 n hn)

/-! ## Answers -/

/-- An answer about an inherited method stays. -/
theorem inheritsMethod_eq (h : t.Extends t') {b : Bool}
    (hdecided : t.inheritsMethod c method = some b) : t'.inheritsMethod c method = some b := by
  cases b with
  | true =>
    exact inheritsMethod_eq_some_true_iff.2 (h.inherits (inheritsMethod_eq_some_true_iff.1 hdecided))
  | false =>
    exact inheritsMethod_eq_some_false_iff.2
      (h.rulesOut (inheritsMethod_eq_some_false_iff.1 hdecided))

/-- Both searches meet the ancestors of the smaller table alone, and have them all to list. -/
theorem ancestors_eq (h : t.Extends t') (hcomplete : (t.ancestors c).complete = true) :
    t'.ancestors c = t.ancestors c := by
  obtain ⟨hc, hknown⟩ := complete_iff_isAncestor.1 hcomplete
  have hnames : List.Forall₂ (fun m m' => m = m' ∧ t.IsAncestor c m) (t.ancestors c).names
      (t'.ancestors c).names := by
    rw [names_ancestors, names_ancestors, h.supertypesOf_eq hc]
    refine forall₂_search ?_ ?_ ?_ ?_
    · rintro m _ n _ ⟨rfl, -⟩ ⟨rfl, -⟩
      rfl
    · rintro m _ ⟨rfl, hm⟩
      rw [h.supertypesOf_eq (hknown m hm)]
      obtain ⟨k, hleads⟩ := hm
      refine List.forall₂_same.2 fun n hn => ⟨rfl, k + 1, ?_⟩
      exact hleads.step (mem_supertypesOf_iff.1 hn)
    · rintro m _ ⟨rfl, hm⟩
      obtain ⟨k, hleads⟩ := hm
      exact iff_of_true hleads.lists_allSupertypes (h.leads hleads).lists_allSupertypes
    · exact List.forall₂_same.2 fun n hn => ⟨rfl, 1, .direct (mem_supertypesOf_iff.1 hn)⟩
  have hsame : (t'.ancestors c).names = (t.ancestors c).names := by
    have hrel := hnames.imp fun _ _ hn => hn.1
    rw [List.forall₂_eq_eq_eq] at hrel
    exact hrel.symm
  have hcomplete' : (t'.ancestors c).complete = true := by
    refine complete_ancestors_iff.2 ⟨h.isSome hc, fun n hn => ?_⟩
    rw [hsame] at hn
    exact h.isSome (hknown n (leads_of_mem_ancestors hn))
  exact Ancestry.ext hsame (hcomplete'.trans hcomplete.symm)

end Extends

/-! ## Further files -/

/-- No declaration of the files has the name of one that the table holds, whatever the case of its
letters. -/
def NewNames (t : SymbolTable) (files : List TokenStream) : Prop :=
  ∀ s ∈ files, ∀ symbol ∈ Declaration.ofStream s, ∀ known ∈ t.symbols,
    Text.sameLetters symbol.name known.name = false

instance (t : SymbolTable) (files : List TokenStream) : Decidable (t.NewNames files) :=
  inferInstanceAs (Decidable (∀ s ∈ files, ∀ symbol ∈ Declaration.ofStream s, ∀ known ∈ t.symbols,
    Text.sameLetters symbol.name known.name = false))

/-- A look-up that succeeds goes past the declarations of new names. -/
theorem extends_addFiles {files : List TokenStream} (hnew : t.NewNames files) :
    t.Extends (files.foldl addFile t) := by
  intro name symbol hget
  have hlater : (SymbolTable.mk (files.flatMap Declaration.ofStream)).get? name = none := by
    refine List.find?_eq_none.2 fun other hother hsame => ?_
    obtain ⟨s, hs, hother⟩ := List.mem_flatMap.1 (List.mem_reverse.1 hother)
    have hne := hnew s hs other hother symbol (mem_symbols_of_get? hget)
    rw [Text.sameLetters_trans hsame (Text.sameLetters_symm (sameLetters_of_get? hget))] at hne
    cases hne
  have hsymbols : files.foldl addFile t =
      ⟨t.symbols ++ files.flatMap Declaration.ofStream⟩ := by
    rw [← symbols_foldl_addFile]
  rw [hsymbols, get?_append, hlater, Option.none_or]
  exact hget

/-- **Knowing more files never flips a decided answer.**  When a table gets further files that
declare no name of its own again, every answer about an inherited method stays, and so does every
ancestry that is complete. -/
theorem decided_addFiles (t : SymbolTable) (files : List TokenStream) (hnew : t.NewNames files) :
    (∀ c method b, t.inheritsMethod c method = some b →
      (files.foldl addFile t).inheritsMethod c method = some b) ∧
    ∀ c, (t.ancestors c).complete = true → (files.foldl addFile t).ancestors c = t.ancestors c := by
  have hextends := extends_addFiles hnew
  exact ⟨fun _ _ _ hdecided => hextends.inheritsMethod_eq hdecided,
    fun _ hcomplete => hextends.ancestors_eq hcomplete⟩

/-- The method of a trait that a parent uses stays inherited when the parent of another class, unknown
so far, turns out to be declared. -/
theorem decided_addFiles_trait :
    ∃ s s', TokenStream.ofSource ("<?php class A extends B \x7b\x7d class B \x7b use T; \x7d " ++
        "trait T \x7b function f() \x7b\x7d \x7d class D extends Gone \x7b\x7d").toList = .ok s ∧
      TokenStream.ofSource "<?php class gone extends A \x7b\x7d trait U \x7b\x7d".toList = .ok s' ∧
      (ofStreams [s]).NewNames [s'] ∧
      (ofStreams [s]).inheritsMethod ['A'] ['F'] = some true ∧
      ((ofStreams [s]).ancestors ['a']).complete = true ∧
      ([s'].foldl addFile (ofStreams [s])).inheritsMethod ['A'] ['F'] = some true ∧
      ([s'].foldl addFile (ofStreams [s])).ancestors ['a'] = (ofStreams [s]).ancestors ['a'] := by
  have hfirst : (TokenStream.ofSource
      ("<?php class A extends B \x7b\x7d class B \x7b use T; \x7d " ++
        "trait T \x7b function f() \x7b\x7d \x7d class D extends Gone \x7b\x7d").toList).map
      (fun s => decide ((ofStreams [s]).inheritsMethod ['A'] ['F'] = some true ∧
        ((ofStreams [s]).ancestors ['a']).complete = true ∧
        (ofStreams [s]).symbols.map TypeSymbol.name = [['A'], ['B'], ['T'], ['D']])) =
          .ok true := by
    decide +kernel
  have hsecond : (TokenStream.ofSource
      "<?php class gone extends A \x7b\x7d trait U \x7b\x7d".toList).map
      (fun s => decide (∀ symbol ∈ Declaration.ofStream s, ∀ known ∈ [['A'], ['B'], ['T'], ['D']],
        Text.sameLetters symbol.name known = false)) = .ok true := by
    decide +kernel
  obtain ⟨s, hs, hcomputed⟩ := TokenStream.exists_of_map_ofSource hfirst
  obtain ⟨s', hs', hcomputed'⟩ := TokenStream.exists_of_map_ofSource hsecond
  obtain ⟨hinherits, hcomplete, hnames⟩ := of_decide_eq_true hcomputed
  have hnew : (ofStreams [s]).NewNames [s'] := by
    intro file hfile symbol hsymbol known hknown
    rw [List.mem_singleton.1 hfile] at hsymbol
    refine of_decide_eq_true hcomputed' symbol hsymbol known.name ?_
    rw [← hnames]
    exact List.mem_map_of_mem hknown
  obtain ⟨hanswers, hancestries⟩ := decided_addFiles (ofStreams [s]) [s'] hnew
  exact ⟨s, s', hs, hs', hnew, hinherits, hcomplete, hanswers _ _ _ hinherits,
    hancestries _ hcomplete⟩

end PhpLint.SymbolTable

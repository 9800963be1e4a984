import Mathlib.Data.List.Forall2
import PhpLint.Proofs.Symbols.Inheritance

/-!
# Two tables side by side

Two tables are compared along a relation between the names that the one speaks of and those that the
other does.  Where related names have declarations that refer to related names, both searches list
related ancestors one by one (`forall₂_search`): what a search does next depends only on which names
are spellings of one another.  Likewise both tables answer alike whether a method is inherited
(`Alike.inheritsMethod_eq`).

Tables whose look-ups are the same are an instance of this, and so are tables whose names differ in
the case of their letters.
-/

namespace PhpLint

/-! ## Related answers and lists -/

section Rel

variable {α β : Type} {r : α → β → Prop} {o : Option α} {o' : Option β}

/-- Related answers are both missing, or both there and related. -/
theorem Option.eq_or_eq_of_rel (h : Option.Rel r o o') :
    o = none ∧ o' = none ∨ ∃ a b, o = some a ∧ o' = some b ∧ r a b := by
  cases h with
  | none => exact .inl ⟨rfl, rfl⟩
  | @some a b hab => exact .inr ⟨a, b, rfl, rfl, hab⟩

/-- Of related answers both are there or neither is. -/
theorem Option.isSome_eq_of_rel (h : Option.Rel r o o') : o.isSome = o'.isSome := by
  cases h <;> rfl

/-- What holds of one element when it holds of the related one holds of both lists or of neither. -/
theorem forall_mem_iff_of_forall₂ {p : α → Prop} {q : β → Prop} {xs : List α} {ys : List β}
    (h : List.Forall₂ (fun a b => p a ↔ q b) xs ys) : (∀ a ∈ xs, p a) ↔ ∀ b ∈ ys, q b := by
  induction h with
  | nil => simp
  | cons hab _ ih => rw [List.forall_mem_cons, List.forall_mem_cons, hab, ih]

end Rel

/-! ## Names in some spelling -/

variable {R : Text → Text → Prop}

/-- Related names are spellings of one name exactly if the names related to them are. -/
def KeepsSpellings (R : Text → Text → Prop) : Prop :=
  ∀ m m' n n', R m m' → R n n' → Text.sameLetters m n = Text.sameLetters m' n'

theorem keepsSpellings_eq : KeepsSpellings Eq := by
  rintro m _ n _ rfl rfl
  rfl

/-- Names that differ in case alone have the same spellings. -/
theorem keepsSpellings_sameLetters :
    KeepsSpellings fun m m' => Text.sameLetters m m' = true := by
  intro m m' n n' hm hn
  rw [Text.sameLetters, Text.sameLetters, Text.sameLetters_iff.1 hm, Text.sameLetters_iff.1 hn]

/-- Lists of related names hold the same names, up to the relation. -/
theorem lists_iff_of_forall₂ (hR : KeepsSpellings R) {names names' : List Text}
    (h : List.Forall₂ R names names') {m m' : Text} (hm : R m m') :
    Lists names m ↔ Lists names' m' := by
  induction h with
  | nil => simp [Lists]
  | cons hname _ ih => rw [lists_cons_iff, lists_cons_iff, hR _ _ _ _ hname hm, ih]

/-- Declarations that refer to related names and declare the same methods, whatever the case of
their letters. -/
structure TypeSymbol.Alike (R : Text → Text → Prop) (x y : TypeSymbol) : Prop where
  supertypes : List.Forall₂ R x.supertypes y.supertypes
  traits : List.Forall₂ R x.traits y.traits
  methods : List.Forall₂ (fun m n => Text.sameLetters m n = true) x.methods y.methods

/-- Declarations that are alike declare the same methods. -/
theorem TypeSymbol.Alike.declares_eq {x y : TypeSymbol} (h : Alike R x y) {method method' : Text}
    (hmethod : Text.sameLetters method method' = true) :
    x.declares method = y.declares method' := by
  rw [Bool.eq_iff_iff]
  exact any_sameLetters_iff.trans
    ((lists_iff_of_forall₂ keepsSpellings_sameLetters h.methods hmethod).trans
      any_sameLetters_iff.symm)

attribute [ext] Ancestry

namespace SymbolTable

variable {t t' : SymbolTable} {method method' : Text}

/-! ## The search for ancestors -/

/-- **The searches for ancestors list related names**, one by one. -/
theorem forall₂_search (hR : KeepsSpellings R)
    (hsupertypes : ∀ m m', R m m' → List.Forall₂ R (t.supertypesOf m) (t'.supertypesOf m'))
    {unlisted unlisted' queue queue' : List Text}
    (hunlisted : ∀ m m', R m m' → (Lists unlisted m ↔ Lists unlisted' m'))
    (hqueue : List.Forall₂ R queue queue') :
    List.Forall₂ R (t.search unlisted queue) (t'.search unlisted' queue') := by
  fun_induction search t unlisted queue generalizing unlisted' queue' with
  | case1 =>
    cases hqueue
    rw [search]
    exact .nil
  | case2 unlisted name rest hlisted ih =>
    cases hqueue with
    | cons hname hrest =>
      have hlisted' := (hunlisted _ _ hname).1 (any_sameLetters_iff.1 hlisted)
      rw [search, if_pos (any_sameLetters_iff.2 hlisted')]
      refine .cons hname (ih ?_ (List.rel_append hrest (hsupertypes _ _ hname)))
      intro m m' hm
      rw [lists_strike_iff, lists_strike_iff, hunlisted m m' hm, hR _ _ _ _ hname hm]
  | case3 unlisted name rest hlisted ih =>
    cases hqueue with
    | cons hname hrest =>
      rw [any_sameLetters_iff, hunlisted _ _ hname, ← any_sameLetters_iff] at hlisted
      rw [search, if_neg hlisted]
      exact ih hunlisted hrest

/-! ## The search through traits -/

/-- Answers that are the same one by one merge to the same. -/
theorem anyKnown_eq_of_forall₂ {answer answer' : Text → Option Bool} {names names' : List Text}
    (h : List.Forall₂ (fun m n => answer m = answer' n) names names') :
    anyKnown answer names = anyKnown answer' names' := by
  induction h with
  | nil => rfl
  | cons hanswer _ ih => rw [anyKnown, anyKnown, hanswer, ih]

/-- The searches through traits answer alike. -/
theorem declaresMethod_eq_of_rel
    (hget : ∀ m m', R m m' → Option.Rel (TypeSymbol.Alike R) (t.get? m) (t'.get? m'))
    (hmethod : Text.sameLetters method method' = true) {depth : Nat} {m m' : Text} (hm : R m m') :
    t.declaresMethod method depth m = t'.declaresMethod method' depth m' := by
  induction depth generalizing m m' with
  | zero => rfl
  | succ depth ih =>
    rw [declaresMethod, declaresMethod]
    rcases Option.eq_or_eq_of_rel (hget m m' hm) with ⟨hx, hy⟩ | ⟨x, y, hx, hy, halike⟩
    · rw [hx, hy]
    · have htraits := anyKnown_eq_of_forall₂ (halike.traits.imp fun _ _ hn => ih hn)
      rw [hx, hy]
      dsimp only
      rw [halike.declares_eq hmethod, htraits]

/-! ## Tables -/

/-- Tables in which related names have declarations that refer to related names. -/
structure Alike (R : Text → Text → Prop) (t t' : SymbolTable) : Prop where
  spellings : KeepsSpellings R
  get? : ∀ m m', R m m' → Option.Rel (TypeSymbol.Alike R) (t.get? m) (t'.get? m')
  lists : ∀ m m', R m m' → (Lists t.allSupertypes m ↔ Lists t'.allSupertypes m')

/-- Related declarations refer to related names. -/
theorem forall₂_supertypesOf {c c' : Text}
    (h : Option.Rel (TypeSymbol.Alike R) (t.get? c) (t'.get? c')) :
    List.Forall₂ R (t.supertypesOf c) (t'.supertypesOf c') := by
  rw [supertypesOf, supertypesOf]
  rcases Option.eq_or_eq_of_rel h with ⟨hx, hy⟩ | ⟨x, y, hx, hy, halike⟩
  · rw [hx, hy]
    exact .nil
  · rw [hx, hy]
    exact halike.supertypes

namespace Alike

variable {c c' : Text}

/-- Both tables list related ancestors, and miss a declaration of one or not. -/
theorem ancestors_rel (h : Alike R t t')
    (hc : Option.Rel (TypeSymbol.Alike R) (t.get? c) (t'.get? c')) :
    List.Forall₂ R (t.ancestors c).names (t'.ancestors c').names ∧
      (t.ancestors c).complete = (t'.ancestors c').complete := by
  have hnames : List.Forall₂ R (t.ancestors c).names (t'.ancestors c').names := by
    rw [names_ancestors, names_ancestors]
    exact forall₂_search h.spellings (fun m m' hm => forall₂_supertypesOf (h.get? m m' hm)) h.lists
      (forall₂_supertypesOf hc)
  have hknown : (∀ n ∈ (t.ancestors c).names, (t.get? n).isSome) ↔
      ∀ n ∈ (t'.ancestors c').names, (t'.get? n).isSome :=
    forall_mem_iff_of_forall₂
      (hnames.imp fun m m' hm => by rw [Option.isSome_eq_of_rel (h.get? m m' hm)])
  refine ⟨hnames, ?_⟩
  rw [Bool.eq_iff_iff, complete_ancestors_iff, complete_ancestors_iff, Option.isSome_eq_of_rel hc,
    hknown]

/-- Both tables know as much of an inherited method. -/
theorem inheritsMethod_eq (h : Alike R t t')
    (hc : Option.Rel (TypeSymbol.Alike R) (t.get? c) (t'.get? c'))
    (hmethod : Text.sameLetters method method' = true) :
    t.inheritsMethod c method = t'.inheritsMethod c' method' := by
  obtain ⟨hnames, hcomplete⟩ := h.ancestors_rel hc
  have hdeclares (m m' : Text) (hm : R m m') : t.declaresMethod method (traitDepth + 1) m =
      t'.declaresMethod method' (traitDepth + 1) m' :=
    declaresMethod_eq_of_rel h.get? hmethod hm
  have hanswers := anyKnown_eq_of_forall₂ (hnames.imp hdeclares)
  rw [inheritsMethod, inheritsMethod]
  rcases Option.eq_or_eq_of_rel hc with ⟨hx, hy⟩ | ⟨x, y, hx, hy, -⟩
  · rw [hx, hy]
  · rw [hx, hy]
    dsimp only
    rw [hanswers, hcomplete]

end Alike

end SymbolTable

end PhpLint

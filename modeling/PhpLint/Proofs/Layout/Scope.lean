import Mathlib.Data.List.Sort
import PhpLint.Proofs.Layout.Code
import PhpLint.Proofs.LineEnds.NameScope

/-!
# Names and bodies in streams of one code

A search may start between two significant tokens, so indices are compared by their **level**: as many
significant tokens stand before the one as before the other.  What is asked of significant tokens alone and
answered alike at tokens that match (`Told`) is found at tokens that match, from equal levels on in either
direction.

With it the scopes follow: declarations have the same names, and their bodies lie between braces that
match.
-/

/-- The first elements of related lists are related. -/
theorem List.Forall₂.rel_head? {α β : Type} {r : α → β → Prop} {xs : List α} {ys : List β}
    (h : List.Forall₂ r xs ys) : Option.Rel r xs.head? ys.head? := by
  cases h with
  | nil => exact .none
  | cons hab _ => exact .some hab

namespace PhpLint

namespace TokenStream

variable {s s' : TokenStream} {a a' b b' i i' j j' : Nat} {f f' : Nat → Bool}

/-! ## Levels -/

/-- As many significant tokens stand before the one index as before the other. -/
def Level (s s' : TokenStream) (i i' : Nat) : Prop := s'.ordinal i' = s.ordinal i

theorem Matches.level_succ (h : Matches s s' i i') : Level s s' (i + 1) (i' + 1) := by
  rw [Level, ordinal_succ h.left, ordinal_succ h.right, h.ordinal]

/-- The starts of two streams are on one level. -/
theorem level_zero (s s' : TokenStream) : Level s s' 0 0 := by
  rw [Level, ordinal, ordinal, Nat.count_zero, Nat.count_zero]

/-- The ends of two streams of one code are on one level. -/
theorem level_size (hcode : s'.code = s.code) : Level s s' s.size s'.size := by
  rw [Level, ordinal_size, ordinal_size, hcode]

/-- Behind what is not significant the level is the same. -/
theorem Level.skip (h : Level s s' i i') (hi : s.has i Kind.isSignificant = false) :
    Level s s' (i + 1) i' := by
  rw [Level, ordinal_succ_of_not hi, h]

theorem Level.symm (h : Level s s' i i') : Level s' s i' i := Eq.symm h

/-- A token lies before an index when the token that matches lies before the index on its level. -/
theorem Matches.lt_level_iff (h : Matches s s' i i') (hj : Level s s' j j') : i' < j' ↔ i < j := by
  rw [← ordinal_lt_iff h.right, ← ordinal_lt_iff h.left, h.ordinal, hj]

/-- A token lies at or behind an index when the token that matches does. -/
theorem Matches.level_le_iff (h : Matches s s' i i') (hj : Level s s' j j') : j' ≤ i' ↔ j ≤ i := by
  rw [← Nat.not_lt, ← Nat.not_lt, h.lt_level_iff hj]

/-! ## Questions about the code -/

/-- A question that only significant tokens answer with yes, and tokens that match alike. -/
structure Told (s s' : TokenStream) (f f' : Nat → Bool) : Prop where
  left : ∀ k, f k = true → s.has k Kind.isSignificant = true
  right : ∀ k, f' k = true → s'.has k Kind.isSignificant = true
  alike : ∀ k k', Matches s s' k k' → f' k' = f k

/-- A token that has the one property has every weaker one. -/
theorem has_mono {p q : Kind → Bool} (hpq : ∀ k, p k = true → q k = true) (hi : s.has i p = true) :
    s.has i q = true := by
  obtain ⟨k, hk, hp⟩ := (Option.any_eq_true _ _).1 hi
  rw [has, hk]
  exact hpq k hp

/-- No keyword stands where nothing significant does. -/
theorem not_isAt_keyword (hi : s.has i Kind.isSignificant = false) (w : Keyword) :
    s.isAt i (.keyword w) = false := by
  refine eq_false_of_ne_true fun hat => ?_
  rw [has_of_isAt hat] at hi
  cases hi

/-- What a kind of code is asked for is told. -/
theorem told_has (hcode : s'.code = s.code) {p : Kind → Bool}
    (hp : ∀ k, p k = true → k.isSignificant = true) : Told s s' (s.has · p) (s'.has · p) :=
  ⟨fun _ => has_mono hp, fun _ => has_mono hp, fun _ _ h => h.has hcode p⟩

/-- What fits in a stretch, told by the significant indices. -/
theorem filter_range'_eq (hf : ∀ k, f k = true → s.has k Kind.isSignificant = true) (a b : Nat) :
    (List.range' a (b - a)).filter f =
      s.codeIndices.filter fun k => decide (a ≤ k) && decide (k < b) && f k := by
  have hsorted (q : Nat → Bool) (n m : Nat) : ((List.range' n m).filter q).Pairwise (· < ·) :=
    List.Pairwise.filter q List.pairwise_lt_range'
  refine (hsorted f a (b - a)).eq_of_mem_iff ?_ fun k => ?_
  · rw [codeIndices, List.filter_filter, List.range_eq_range']
    exact hsorted _ 0 s.size
  · simp only [codeIndices, List.mem_filter, List.mem_range'_1, List.mem_range, Bool.and_eq_true,
      decide_eq_true_eq]
    constructor
    · rintro ⟨⟨hak, hkb⟩, hk⟩
      have hsignificant := hf k hk
      exact ⟨⟨lt_size_of_has hsignificant, hsignificant⟩, ⟨hak, by omega⟩, hk⟩
    · rintro ⟨-, ⟨hak, hkb⟩, hk⟩
      exact ⟨⟨hak, by omega⟩, hk⟩

/-- Between equal levels the tokens that fit match one by one. -/
theorem Told.forall₂_filter (hcode : s'.code = s.code) (h : Told s s' f f') (ha : Level s s' a a')
    (hb : Level s s' b b') :
    List.Forall₂ (Matches s s') ((List.range' a (b - a)).filter f)
      ((List.range' a' (b' - a')).filter f') := by
  rw [filter_range'_eq h.left, filter_range'_eq h.right]
  refine List.rel_filter (fun k k' hk => ?_) (forall₂_codeIndices hcode)
  simp only [Bool.and_eq_true, decide_eq_true_eq, hk.level_le_iff ha, hk.lt_level_iff hb,
    h.alike k k' hk]

/-- All tokens that fit match one by one. -/
theorem Told.forall₂_filter_range (hcode : s'.code = s.code) (h : Told s s' f f') :
    List.Forall₂ (Matches s s') ((List.range s.size).filter f) ((List.range s'.size).filter f') := by
  have hall := h.forall₂_filter hcode (level_zero s s') (level_size hcode)
  rwa [Nat.sub_zero, Nat.sub_zero, ← List.range_eq_range', ← List.range_eq_range'] at hall

/-- What is told is found first at tokens that match. -/
theorem Told.rel_find? (hcode : s'.code = s.code) (h : Told s s' f f') (ha : Level s s' a a')
    (hb : Level s s' b b') :
    Option.Rel (Matches s s') ((List.range' a (b - a)).find? f)
      ((List.range' a' (b' - a')).find? f') := by
  rw [← List.head?_filter, ← List.head?_filter]
  exact (h.forall₂_filter hcode ha hb).rel_head?

/-- What is told is found last at tokens that match. -/
theorem Told.rel_find?_reverse (hcode : s'.code = s.code) (h : Told s s' f f')
    (ha : Level s s' a a') (hb : Level s s' b b') :
    Option.Rel (Matches s s') ((List.range' a (b - a)).reverse.find? f)
      ((List.range' a' (b' - a')).reverse.find? f') := by
  rw [← List.head?_filter, ← List.head?_filter, List.filter_reverse, List.filter_reverse]
  exact (List.rel_reverse (h.forall₂_filter hcode ha hb)).rel_head?

/-- A search forward takes the first index that fits. -/
theorem findNext_eq_find? (s : TokenStream) (p : Kind → Bool) (start : Nat) :
    s.findNext p start = (List.range' start (s.size - start)).find? (s.has · p) := by
  have hfrom (n i : Nat) : s.findFrom p n i = (List.range' i n).find? (s.has · p) := by
    induction n generalizing i with
    | zero => rfl
    | succ n ih =>
      rw [findFrom, List.range'_succ, List.find?_cons, ih]
      cases s.has i p <;> rfl
  exact hfrom (s.size - start) start

/-- A search for code finds tokens that match. -/
theorem Level.findNext (hcode : s'.code = s.code) {p : Kind → Bool}
    (hp : ∀ k, p k = true → k.isSignificant = true) (h : Level s s' i i') :
    Option.Rel (Matches s s') (s.findNext p i) (s'.findNext p i') := by
  rw [findNext_eq_find?, findNext_eq_find?]
  exact (told_has hcode hp).rel_find? hcode h (level_size hcode)

/-! ## Declarations -/

/-- The keyword of a type is code. -/
theorem isSignificant_of_isTypeDeclaration (hi : s.isTypeDeclaration i = true) :
    s.has i Kind.isSignificant = true := by
  rw [isTypeDeclaration, Bool.and_eq_true, Bool.and_eq_true] at hi
  refine has_mono (fun k hk => ?_) hi.1.1
  unfold Kind.isTypeKeyword at hk
  split at hk
  · rfl
  · rfl
  · rfl
  · cases hk

section SameCode

variable (hcode : s'.code = s.code)
include hcode

/-- Declarations at tokens that match have one name. -/
theorem Matches.declaredName? (h : Matches s s' i i') : s'.declaredName? i' = s.declaredName? i := by
  have hname {k k' : Nat} (hk : Matches s s' k k') :
      (if s'.isAt k' .identifier then some (s'.content k') else none) =
        if s.isAt k .identifier then some (s.content k) else none := by
    rw [hk.isAt hcode, hk.content hcode]
  unfold TokenStream.declaredName?
  have hnext := h.nextSignificant hcode
  generalize s.nextSignificant i = next?, s'.nextSignificant i' = next?' at hnext ⊢
  cases hnext with
  | none => rfl
  | @some next next' hnext =>
    simp only [Option.bind_eq_bind, Option.bind_some, hnext.content hcode]
    by_cases hand : s.content next = ['&']
    · rw [if_pos hand, if_pos hand]
      have hbehind := hnext.nextSignificant hcode
      generalize s.nextSignificant next = name?, s'.nextSignificant next' = name?' at hbehind ⊢
      cases hbehind with
      | none => rfl
      | some hbehind => exact hname hbehind
    · rw [if_neg hand, if_neg hand, hnext.isAt hcode]

/-- The one token is the keyword of a closure when the other is. -/
theorem Matches.isClosure (h : Matches s s' i i') : s'.isClosure i' = s.isClosure i := by
  rw [TokenStream.isClosure, TokenStream.isClosure, h.isAt hcode, h.declaredName? hcode]

/-- The one token is the keyword of an anonymous class when the other is. -/
theorem Matches.isAnonymousClass (h : Matches s s' i i') :
    s'.isAnonymousClass i' = s.isAnonymousClass i := by
  have hnew := Option.any_of_rel (h.previousSignificant hcode) fun _ _ hbefore =>
    hbefore.isAt hcode (.keyword .kwNew)
  rw [TokenStream.isAnonymousClass, TokenStream.isAnonymousClass, h.isAt hcode, hnew]

/-- The one token declares a type when the other does. -/
theorem Matches.isTypeDeclaration (h : Matches s s' i i') :
    s'.isTypeDeclaration i' = s.isTypeDeclaration i := by
  have hbefore := Option.any_of_rel
    (p := fun k => s.isAt k .doubleColon || s.isAt k (.keyword .kwNew))
    (q := fun k => s'.isAt k .doubleColon || s'.isAt k (.keyword .kwNew))
    (h.previousSignificant hcode)
    fun _ _ hbefore => by rw [hbefore.isAt hcode, hbefore.isAt hcode]
  rw [TokenStream.isTypeDeclaration, TokenStream.isTypeDeclaration, h.has hcode, hbefore,
    h.declaredName? hcode]

theorem told_isTypeDeclaration : Told s s' s.isTypeDeclaration s'.isTypeDeclaration :=
  ⟨fun _ => isSignificant_of_isTypeDeclaration, fun _ => isSignificant_of_isTypeDeclaration,
    fun _ _ h => h.isTypeDeclaration hcode⟩

end SameCode

/-! ## Bodies -/

/-- Bodies whose braces match. -/
def MatchBodies (s s' : TokenStream) (body body' : Nat × Nat) : Prop :=
  Matches s s' body.1 body'.1 ∧ Matches s s' body.2 body'.2

section Sources

variable {source source' : Text} (hs : ofSource source = .ok s) (hs' : ofSource source' = .ok s')
  (hcode : s'.code = s.code)
include hs hs' hcode

/-- The search for the body starts on one level. -/
theorem Matches.bodySearchStart? (h : Matches s s' i i') :
    Option.Rel (Level s s') (s.bodySearchStart? i) (s'.bodySearchStart? i') := by
  unfold TokenStream.bodySearchStart?
  rw [h.has hcode]
  split
  · refine Option.rel_bind (h.level_succ.findNext hcode (p := (· == .opens .round)) ?_)
      fun opener opener' hopener => ?_
    · intro k hk
      rw [beq_iff_eq.1 hk]
      rfl
    · exact Option.rel_bind (hopener.partner? hs hs' hcode) fun closer closer' hcloser =>
        .some hcloser.level_succ
  · exact .some h.level_succ

/-- The braces that open the bodies match. -/
theorem Matches.bodyOpener? (h : Matches s s' i i') :
    Option.Rel (Matches s s') (s.bodyOpener? i) (s'.bodyOpener? i') := by
  refine Option.rel_bind (h.bodySearchStart? hs hs' hcode) fun start start' hstart => ?_
  have hfound := hstart.findNext hcode (p := fun k => k == .opens .curly || k == .semicolon) ?_
  · refine Option.rel_bind hfound fun found found' hfound => ?_
    rw [hfound.isAt hcode]
    split
    · exact .some hfound
    · exact .none
  · intro k hk
    rw [Bool.or_eq_true, beq_iff_eq, beq_iff_eq] at hk
    rcases hk with rfl | rfl <;> rfl

theorem Matches.bodyCloser? (h : Matches s s' i i') :
    Option.Rel (Matches s s') (s.bodyCloser? i) (s'.bodyCloser? i') :=
  Option.rel_bind (h.bodyOpener? hs hs' hcode) fun _ _ hopener => hopener.partner? hs hs' hcode

/-- The bodies of declarations at tokens that match do match. -/
theorem Matches.body? (h : Matches s s' i i') :
    Option.Rel (MatchBodies s s') (s.body? i) (s'.body? i') :=
  Option.rel_bind (h.bodyOpener? hs hs' hcode) fun _ _ hopener =>
    Option.rel_bind (hopener.partner? hs hs' hcode) fun _ _ hcloser => .some ⟨hopener, hcloser⟩

end Sources

/-- Tokens that match lie in bodies that match, or both outside. -/
theorem MatchBodies.inside {body body' : Nat × Nat} (hbody : MatchBodies s s' body body')
    (h : Matches s s' i i') : inside i' body' = inside i body := by
  simp only [TokenStream.inside, hbody.1.lt_iff h, h.lt_iff hbody.2]

end TokenStream

end PhpLint

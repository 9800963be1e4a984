import PhpLint.Proofs.Lexing.Layout
import PhpLint.Proofs.Scopes.OwnBody
import PhpLint.Sniff.FunctionComment

/-!
# The statements that return from a function

The cursor that collects the statements that return jumps from the keyword of a closure or an
anonymous class to the end of the body that the look-up gives it.  Where every header is plain, it
jumps over nothing but nested bodies and their headers, and leaves no nested body out
(`returnsFrom_exact`).
-/

namespace PhpLint.FunctionComment

open TokenStream

variable {s : TokenStream} {i o c : Nat}

/-- The index lies in the body of a closure or an anonymous class whose keyword follows `i`.  An arrow
function has no body in braces, and what it yields counts as the outer function's. -/
def InNested (s : TokenStream) (i j : Nat) : Prop :=
  ∃ k o c, i < k ∧ s.startsUnnamed k = true ∧ s.OwnBody k o c ∧ o < j ∧ j < c

/-- The scan of a function from `i` to `c` meets the keyword at `k`: it is the function's own, or
starts a closure or an anonymous class that lies in no other one. -/
def Meets (s : TokenStream) (i c k : Nat) : Prop :=
  k = i ∨ i < k ∧ k < c ∧ s.startsUnnamed k = true ∧ ¬InNested s i k

/-- What the scan of a function from `i` to `c` relies on. -/
structure PlainlyNested (s : TokenStream) (i c : Nat) : Prop where
  /-- All headers are plain. -/
  plain : ∀ k o' c', Meets s i c k → s.OwnBody k o' c' → s.PlainHeader k o'
  /-- A statement in a header that returns does so from a nested body. -/
  returns : ∀ k o' c' j, Meets s i c k → s.OwnBody k o' c' → k < j → j < o' →
    s.has j isReturn = true → InNested s i j
  /-- A class without a name stands right behind `new`. -/
  afterNew : ∀ k o' c', Meets s i c k → s.OwnBody k o' c' → s.isUnnamedClass k = true →
    s.isAnonymousClass k = true
  /-- A keyword without a body of its own is not given another one. -/
  bodiless : ∀ k, Meets s i c k → startsNested s k = true → (∀ o' c', ¬s.OwnBody k o' c') →
    s.bodyCloser? k = none

/-- A nested body around an index opens before the index, so it can be searched for. -/
theorem inNested_iff {j : Nat} :
    InNested s i j ↔ ∃ k, k < j ∧ i < k ∧ s.startsUnnamed k = true ∧
      ∃ body ∈ s.ownBodies k, body.1 < j ∧ j < body.2 := by
  simp only [mem_ownBodies_iff]
  constructor
  · rintro ⟨k, o, c, hik, hunnamed, hown, hoj, hjc⟩
    exact ⟨k, Nat.lt_trans hown.lt hoj, hik, hunnamed, (o, c), hown, hoj, hjc⟩
  · rintro ⟨k, -, hik, hunnamed, ⟨o, c⟩, hown, hoj, hjc⟩
    exact ⟨k, o, c, hik, hunnamed, hown, hoj, hjc⟩

instance (s : TokenStream) (i j : Nat) : Decidable (InNested s i j) :=
  decidable_of_iff _ inNested_iff.symm

instance (s : TokenStream) (i c k : Nat) : Decidable (Meets s i c k) :=
  inferInstanceAs (Decidable (_ ∨ _ ∧ _ ∧ _ ∧ _))

/-- The headers that a scan meets stand before the end of the function, so they can be looked at one by
one. -/
theorem plainlyNested_iff :
    PlainlyNested s i c ↔ ∀ k ∈ i :: List.range c, Meets s i c k →
      (∀ body ∈ s.ownBodies k, s.PlainHeader k body.1 ∧
        (∀ j, j < body.1 → k < j → s.has j isReturn = true → InNested s i j) ∧
        (s.isUnnamedClass k = true → s.isAnonymousClass k = true)) ∧
      (startsNested s k = true → s.ownBodies k = [] → s.bodyCloser? k = none) := by
  simp only [List.eq_nil_iff_forall_not_mem, mem_ownBodies_iff, Prod.forall]
  constructor
  · intro h k _ hmeets
    refine ⟨fun o' c' hown => ⟨h.plain k o' c' hmeets hown, ?_, ?_⟩, h.bodiless k hmeets⟩
    · exact fun j hjo hkj => h.returns k o' c' j hmeets hown hkj hjo
    · exact h.afterNew k o' c' hmeets hown
  · intro h
    have hmet {k : Nat} (hmeets : Meets s i c k) : k ∈ i :: List.range c := by
      rcases hmeets with rfl | ⟨-, hkc, -⟩
      · exact List.mem_cons_self
      · exact List.mem_cons_of_mem _ (List.mem_range.2 hkc)
    constructor
    case plain =>
      intro k o' c' hmeets hown
      exact ((h k (hmet hmeets) hmeets).1 o' c' hown).1
    case returns =>
      intro k o' c' j hmeets hown hkj hjo
      exact ((h k (hmet hmeets) hmeets).1 o' c' hown).2.1 j hjo hkj
    case afterNew =>
      intro k o' c' hmeets hown
      exact ((h k (hmet hmeets) hmeets).1 o' c' hown).2.2
    case bodiless =>
      intro k hmeets
      exact (h k (hmet hmeets) hmeets).2

instance (s : TokenStream) (i c : Nat) : Decidable (PlainlyNested s i c) :=
  decidable_of_iff _ plainlyNested_iff.symm

/-- What the look-up takes for a nested body starts one, or an arrow function. -/
theorem startsUnnamed_of_startsNested {k : Nat} (h : startsNested s k = true) :
    s.startsUnnamed k = true := by
  simp only [startsNested, Bool.or_eq_true] at h
  simp only [startsUnnamed, startsAnonymous, Bool.or_eq_true]
  exact h.imp_right .inl

/-- The look-up takes every nested body that the scan meets for one. -/
theorem PlainlyNested.startsNested (h : PlainlyNested s i c) {k o' c' : Nat}
    (hmeets : Meets s i c k) (hown : s.OwnBody k o' c') (hunnamed : s.startsUnnamed k = true) :
    startsNested s k = true := by
  simp only [startsUnnamed, startsAnonymous, Bool.or_eq_true] at hunnamed
  simp only [FunctionComment.startsNested, Bool.or_eq_true]
  rcases hunnamed with hclosure | hanonymous | hclass
  · exact .inl hclosure
  · exact .inr hanonymous
  · exact .inr (h.afterNew k o' c' hmeets hown hclass)

/-- The cursor jumps from the keyword of a nested body to the end that the look-up gives it. -/
theorem nestedEnd?_eq_some_iff {k closer : Nat} :
    nestedEnd? s k = some closer ↔ startsNested s k = true ∧ s.bodyCloser? k = some closer := by
  simp [nestedEnd?]

/-- The keyword of a nested body returns nothing itself. -/
theorem has_isReturn_of_startsUnnamed {k : Nat} (h : s.startsUnnamed k = true) :
    s.has k isReturn = false := by
  rcases kind?_of_startsUnnamed h with hkind | hkind
  · exact has_of_isAt (isAt_iff.2 hkind) isReturn
  · exact has_of_isAt (isAt_iff.2 hkind) isReturn

/-- The keyword of a nested body is no brace of another body. -/
theorem ne_brace_of_startsUnnamed {k k' : Nat} (hown : s.OwnBody k' o c)
    (h : s.startsUnnamed k = true) : k ≠ o ∧ k ≠ c := by
  constructor
  · rintro rfl
    rcases kind?_of_startsUnnamed h with hkind | hkind
    · cases hown.kind?_opener.symm.trans hkind
    · cases hown.kind?_opener.symm.trans hkind
  · rintro rfl
    rcases kind?_of_startsUnnamed h with hkind | hkind
    · cases hown.kind?_closer.symm.trans hkind
    · cases hown.kind?_closer.symm.trans hkind

/-- A keyword that returns is no brace of a body. -/
theorem ne_brace_of_isReturn {j k : Nat} (hown : s.OwnBody k o c)
    (h : s.has j isReturn = true) : j ≠ o ∧ j ≠ c := by
  constructor
  · rintro rfl
    rw [has_of_isAt hown.opener] at h
    cases h
  · rintro rfl
    rw [has_of_isAt (isAt_iff.2 hown.kind?_closer)] at h
    cases h

/-- The statements are collected in order, from the cursor on. -/
theorem pairwise_returnsFrom (p : Nat) :
    (returnsFrom s c p).Pairwise (· < ·) ∧ ∀ j ∈ returnsFrom s c p, p ≤ j := by
  fun_induction returnsFrom s c p with
  | case1 p hp closer hend ih =>
    have hlt : p < closer := lt_of_bodyCloser? (nestedEnd?_eq_some_iff.1 hend).2
    refine ⟨ih.1, fun j hj => ?_⟩
    have := ih.2 j hj
    omega
  | case2 p hp hend ih =>
    constructor
    · refine List.pairwise_append.2 ⟨by split <;> simp, ih.1, fun j hj j' hj' => ?_⟩
      have := ih.2 j' hj'
      split at hj
      · rw [List.mem_singleton.1 hj]
        exact this
      · cases hj
    · intro j hj
      rcases List.mem_append.1 hj with hj | hj
      · split at hj
        · exact Nat.le_of_eq (List.mem_singleton.1 hj).symm
        · cases hj
      · exact Nat.le_of_succ_le (ih.2 j hj)
  | case3 p hp => simp

/-! ## Nested bodies behind the cursor -/

/-- A nested body whose keyword the cursor at `p` has passed ends before the cursor. -/
def Passed (s : TokenStream) (i p : Nat) : Prop :=
  ∀ k o' c', i < k → k < p → s.startsUnnamed k = true → s.OwnBody k o' c' → c' < p

/-- At its start the cursor has passed no nested body. -/
theorem passed_start (s : TokenStream) (i : Nat) : Passed s i (i + 1) := by
  intro k o' c' hik hkp
  omega

/-- The cursor stands in no nested body. -/
theorem Passed.not_inNested {p : Nat} (h : Passed s i p) : ¬InNested s i p := by
  rintro ⟨k, o', c', hik, hunnamed, hown, hop, hpc⟩
  have := h k o' c' hik (Nat.lt_trans hown.lt hop) hunnamed hown
  omega

/-- The cursor goes on by one where no nested body starts. -/
theorem Passed.succ {p : Nat} (h : Passed s i p)
    (hnone : s.startsUnnamed p = true → ∀ o' c', ¬s.OwnBody p o' c') : Passed s i (p + 1) := by
  intro k o' c' hik hkp hunnamed hown
  rcases Nat.lt_or_eq_of_le (Nat.le_of_lt_succ hkp) with hlt | rfl
  · exact Nat.lt_succ_of_lt (h k o' c' hik hlt hunnamed hown)
  · exact absurd hown (hnone hunnamed o' c')

/-- The cursor goes on behind a nested body that starts where it stands. -/
theorem Passed.jump {p o' c' : Nat} (h : Passed s i p) (hown : s.OwnBody p o' c') :
    Passed s i (c' + 1) := by
  intro k o'' c'' hik hkp hunnamed hown'
  have hpc : p < c' := Nat.lt_trans hown.lt hown.opener_lt_closer
  rcases Nat.lt_trichotomy k p with hlt | rfl | hgt
  · have := h k o'' c'' hik hlt hunnamed hown'
    omega
  · have := (hown.unique hown').2
    omega
  · obtain ⟨hko, hkc⟩ := ne_brace_of_startsUnnamed hown hunnamed
    have := hown.closer_le hown' hgt (by omega) hko
    omega

/-! ## The scan -/

/-- What the cursor jumps over returns from nested bodies alone. -/
theorem PlainlyNested.inNested_of_jump (h : PlainlyNested s i c) {k o' c' j : Nat} (hik : i < k)
    (hunnamed : s.startsUnnamed k = true) (hmeets : Meets s i c k) (hown : s.OwnBody k o' c')
    (hkj : k ≤ j) (hjc : j ≤ c') (hreturn : s.has j isReturn = true) : InNested s i j := by
  have hjk : j ≠ k := by
    rintro rfl
    rw [has_isReturn_of_startsUnnamed hunnamed] at hreturn
    cases hreturn
  obtain ⟨hjo, hjc'⟩ := ne_brace_of_isReturn hown hreturn
  rcases Nat.lt_or_ge j o' with hheader | hbody
  · exact h.returns k o' c' j hmeets hown (by omega) hheader hreturn
  · exact ⟨k, o', c', hik, hunnamed, hown, by omega, by omega⟩

/-- From a cursor on, the statements are those that return and stand in no nested body. -/
theorem mem_returnsFrom_iff (h : PlainlyNested s i c) {p : Nat} (hip : i < p)
    (hpassed : Passed s i p) {j : Nat} :
    j ∈ returnsFrom s c p ↔ p ≤ j ∧ j < c ∧ s.has j isReturn = true ∧ ¬InNested s i j := by
  fun_induction returnsFrom s c p with
  | case1 p hpc closer hend ih =>
    obtain ⟨hnested, hcloser⟩ := nestedEnd?_eq_some_iff.1 hend
    have hunnamed := startsUnnamed_of_startsNested hnested
    have hmeets : Meets s i c p := .inr ⟨hip, hpc, hunnamed, hpassed.not_inNested⟩
    -- The keyword has a body of its own: without one there would be nothing to jump over.
    have hexists : ∃ o' c', s.OwnBody p o' c' := by
      by_contra hnone
      push Not at hnone
      rw [h.bodiless p hmeets hnested hnone] at hcloser
      cases hcloser
    obtain ⟨o', c', hown⟩ := hexists
    have heq := hcloser.symm.trans (hown.bodyCloser?_eq (h.plain p o' c' hmeets hown))
    obtain rfl := Option.some.inj heq
    have hlt : p < closer := Nat.lt_trans hown.lt hown.opener_lt_closer
    rw [ih (by omega) (hpassed.jump hown)]
    constructor
    · rintro ⟨hle, hrest⟩
      exact ⟨by omega, hrest⟩
    · rintro ⟨hle, hjc, hreturn, hnot⟩
      refine ⟨?_, hjc, hreturn, hnot⟩
      by_contra hjumped
      exact hnot (h.inNested_of_jump hip hunnamed hmeets hown hle (by omega) hreturn)
  | case2 p hpc hend ih =>
    have hbodiless : s.startsUnnamed p = true → ∀ o' c', ¬s.OwnBody p o' c' := by
      intro hunnamed o' c' hown
      have hmeets : Meets s i c p := .inr ⟨hip, hpc, hunnamed, hpassed.not_inNested⟩
      have hcloser := hown.bodyCloser?_eq (h.plain p o' c' hmeets hown)
      rw [nestedEnd?_eq_some_iff.2 ⟨h.startsNested hmeets hown hunnamed, hcloser⟩] at hend
      cases hend
    rw [List.mem_append, ih (by omega) (hpassed.succ hbodiless)]
    constructor
    · rintro (hj | ⟨hle, hrest⟩)
      · split at hj
        · next hreturn =>
          obtain rfl := List.mem_singleton.1 hj
          exact ⟨Nat.le_refl _, hpc, hreturn, hpassed.not_inNested⟩
        · cases hj
      · exact ⟨by omega, hrest⟩
    · rintro ⟨hle, hjc, hreturn, hfree⟩
      rcases Nat.lt_or_eq_of_le hle with hlt | rfl
      · exact .inr ⟨hlt, hjc, hreturn, hfree⟩
      · exact .inl (by simp [hreturn])
  | case3 p hpc =>
    constructor
    · intro hj
      cases hj
    · rintro ⟨hle, hjc, -⟩
      omega

/-- **The statements of a function are its own.**  Behind plain headers, the statements collected
for a function are those of its body that return, in order, without those in the body of a closure
or an anonymous class. -/
theorem returnsFrom_exact (hown : s.OwnBody i o c) (h : PlainlyNested s i c) :
    s.bodyCloser? i = some c ∧ (returnsFrom s c (i + 1)).Pairwise (· < ·) ∧
      ∀ j, j ∈ returnsFrom s c (i + 1) ↔
        o < j ∧ j < c ∧ s.has j isReturn = true ∧ ¬InNested s i j := by
  refine ⟨hown.bodyCloser?_eq (h.plain i o c (.inl rfl) hown), (pairwise_returnsFrom _).1, ?_⟩
  intro j
  rw [mem_returnsFrom_iff h (Nat.lt_succ_self i) (passed_start s i)]
  constructor
  · rintro ⟨hij, hjc, hreturn, hnot⟩
    refine ⟨?_, hjc, hreturn, hnot⟩
    rcases Nat.lt_trichotomy j o with hheader | rfl | hbody
    · exact absurd (h.returns i o c j (.inl rfl) hown hij hheader hreturn) hnot
    · exact absurd rfl (ne_brace_of_isReturn hown hreturn).1
    · exact hbody
  · rintro ⟨hoj, hrest⟩
    exact ⟨Nat.lt_trans hown.lt hoj, hrest⟩

/-- A closure with variables of its outer function, and a class that is given the closure: the
function itself returns once. -/
theorem returnsFrom_exact_closure_class :
    ∃ s, ofSource (String.toList
      "<?php function f(){$g=function()use($x){yield;};return new class($g){function h(){return;}};}")
        = .ok s ∧
      s.OwnBody 2 6 41 ∧ PlainlyNested s 2 41 ∧ 21 ∈ returnsFrom s 41 3 := by
  have heval : (ofSource (String.toList
      "<?php function f(){$g=function()use($x){yield;};return new class($g){function h(){return;}};}")
      ).map (fun s => decide (s.OwnBody 2 6 41 ∧ PlainlyNested s 2 41 ∧
        s.has 21 isReturn = true ∧ ¬InNested s 2 21)) = .ok true := by
    decide +kernel
  obtain ⟨s, hs, htrue⟩ := exists_of_map_ofSource heval
  obtain ⟨hown, hplain, hreturn, hnot⟩ := of_decide_eq_true htrue
  have hmem := ((returnsFrom_exact hown hplain).2.2 21).2 ⟨by omega, by omega, hreturn, hnot⟩
  exact ⟨s, hs, hown, hplain, hmem⟩

/-- The scan does not get past a closure that a constructor is given: it takes the closure's body
for that of the anonymous class, and the statement at 36 of the class for one of the function. -/
theorem returnsFrom_closure_argument :
    ∃ s, ofSource (String.toList
        "<?php function f() { new class(function () { return; }) { function g() { return 2; } }; }")
        = .ok s ∧
      s.OwnBody 2 7 46 ∧ s.bodyCloser? 2 = some 46 ∧ InNested s 2 36 ∧
      36 ∈ returnsFrom s 46 3 := by
  have heval : (ofSource (String.toList
        "<?php function f() { new class(function () { return; }) { function g() { return 2; } }; }")
      ).map (fun s => decide (s.OwnBody 2 7 46 ∧ s.bodyCloser? 2 = some 46 ∧ InNested s 2 36 ∧
        36 ∈ returnsFrom s 46 3)) = .ok true := by
    decide +kernel
  obtain ⟨s, hs, htrue⟩ := exists_of_map_ofSource heval
  exact ⟨s, hs, of_decide_eq_true htrue⟩

end PhpLint.FunctionComment

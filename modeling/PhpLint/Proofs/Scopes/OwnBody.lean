import Mathlib.Tactic.ByContra
import Mathlib.Tactic.Push
import PhpLint.Proofs.Pairing.Nesting
import PhpLint.TokenStream.Scope

/-!
# Bodies and the brackets around them

The look-up of a body takes the first brace after a keyword, or after a parameter list.  This file
says which brace it should take.  A keyword's **own body** opens with the first brace that stands in
the same brackets as the keyword, no semicolon of those brackets before it.  What stands in brackets
of the header, in a parameter list or among the arguments of a constructor, does not count.

The two agree where the header is **plain**, which is to say that a brace or a semicolon in it stands
in the parameter list (`OwnBody.body?_eq`).  Own bodies nest: what starts inside of one, or in the
header in front of it, ends no later (`OwnBody.closer_le`).
-/

namespace PhpLint.TokenStream

variable {s : TokenStream}

/-- An index lies between two others when it is behind the one and before the other. -/
theorem inside_iff {i a b : Nat} : inside i (a, b) = true ↔ a < i ∧ i < b := by
  simp [inside]

/-- Two pairs lie one behind the other or one inside of the other. -/
theorem nested_of_partner? {a b a' b' : Nat} (h : s.partner? a = some b) (hab : a < b)
    (h' : s.partner? a' = some b') (hab' : a' < b') (haa' : a < a') : b < a' ∨ b' < b := by
  rcases Pairing.apart_of_mem_pairs (mem_pairs_of_lt h hab) (mem_pairs_of_lt h' hab') with
    heq | ⟨hclosers, hopeners⟩ | ⟨hclosers, hopeners⟩
  · cases heq
    exact absurd haa' (Nat.lt_irrefl a)
  · simp only at hclosers hopeners
    omega
  · simp only at hclosers hopeners
    omega

/-! ## Levels -/

/-- Two indices lie in the same brackets. -/
def sameLevel (s : TokenStream) (i j : Nat) : Bool :=
  (List.range s.size).all fun a => (s.partner? a).all fun b => inside i (a, b) == inside j (a, b)

/-- Two indices stand in the same brackets when every pair is around both or neither. -/
theorem sameLevel_iff {i j : Nat} :
    s.sameLevel i j = true ↔
      ∀ a b, s.partner? a = some b → a < b → (a < i ∧ i < b ↔ a < j ∧ j < b) := by
  have hinside (a b : Nat) :
      (inside i (a, b) == inside j (a, b)) = true ↔ (a < i ∧ i < b ↔ a < j ∧ j < b) := by
    rw [beq_iff_eq, Bool.eq_iff_iff, inside_iff, inside_iff]
  simp only [sameLevel, List.all_eq_true, List.mem_range, Option.all_eq_true, hinside]
  constructor
  · intro h a b hpartner hab
    exact h a (lt_size_of_partner? hpartner).1 b hpartner
  · intro h a _ b hpartner
    rcases Nat.lt_or_ge a b with hab | hba
    · exact h a b hpartner hab
    · omega

/-- Indices that differ in their brackets have a pair around one of them alone. -/
theorem exists_pair_of_not_sameLevel {i j : Nat} (h : s.sameLevel i j = false) :
    ∃ a b, s.partner? a = some b ∧ a < b ∧ ¬(a < i ∧ i < b ↔ a < j ∧ j < b) := by
  by_contra hnone
  push Not at hnone
  rw [sameLevel_iff.2 hnone] at h
  cases h

/-! ## Scopes without a name -/

/-- A class keyword without a name, be it right behind `new` or not.  After `::` it starts no class. -/
def isUnnamedClass (s : TokenStream) (k : Nat) : Bool :=
  s.isAt k (.keyword .kwClass) && (s.declaredName? k).isNone &&
    !(s.previousSignificant k).any (s.isAt · .doubleColon)

/-- The keyword at the index starts an anonymous class. -/
def startsAnonymous (s : TokenStream) (k : Nat) : Bool :=
  s.isAnonymousClass k || s.isUnnamedClass k

/-- The keyword at the index starts a closure or an anonymous class. -/
def startsUnnamed (s : TokenStream) (k : Nat) : Bool := s.isClosure k || s.startsAnonymous k

/-- A scope without a name starts with the keyword of a function or of a class. -/
theorem kind?_of_startsUnnamed {k : Nat} (h : s.startsUnnamed k = true) :
    s.kind? k = some (.keyword .kwFunction) ∨ s.kind? k = some (.keyword .kwClass) := by
  simp only [startsUnnamed, startsAnonymous, isClosure, isAnonymousClass, isUnnamedClass,
    Bool.or_eq_true, Bool.and_eq_true, isAt_iff] at h
  rcases h with ⟨hfunction, -⟩ | ⟨hclass, -⟩ | ⟨⟨hclass, -⟩, -⟩
  · exact .inl hfunction
  · exact .inr hclass
  · exact .inr hclass

/-! ## The look-up -/

/-- A brace or a semicolon: what a header ends at. -/
def endsHeader (k : Kind) : Bool := k == .opens .curly || k == .semicolon

/-- A body is the first brace of the search, and its partner. -/
theorem body?_eq_some_iff {k o c : Nat} :
    s.body? k = some (o, c) ↔ ∃ start, s.bodySearchStart? k = some start ∧
      s.findNext endsHeader start = some o ∧ s.isAt o (.opens .curly) = true ∧
        s.partner? o = some c := by
  simp only [body?, bodyOpener?, Option.bind_eq_bind, Option.bind_eq_some_iff, Option.some.injEq,
    Prod.mk.injEq]
  constructor
  · rintro ⟨opener, ⟨start, hstart, found, hfound, hcurly⟩, closer, hcloser, rfl, rfl⟩
    split at hcurly
    · next hopener =>
      cases hcurly
      exact ⟨start, hstart, hfound, hopener, hcloser⟩
    · cases hcurly
  · rintro ⟨start, hstart, hfound, hopener, hcloser⟩
    exact ⟨o, ⟨start, hstart, o, hfound, if_pos hopener⟩, c, hcloser, rfl, rfl⟩

/-- The end of a body is the partner of its brace. -/
theorem bodyCloser?_of_body? {k o c : Nat} (h : s.body? k = some (o, c)) :
    s.bodyCloser? k = some c := by
  simp only [body?, Option.bind_eq_bind, Option.bind_eq_some_iff, Option.some.injEq,
    Prod.mk.injEq] at h
  obtain ⟨opener, hopener, closer, hcloser, rfl, rfl⟩ := h
  exact Option.bind_eq_some_iff.2 ⟨opener, hopener, hcloser⟩

/-! ## Own bodies -/

/-- The parameter list of the function keyword at an index: the first round brackets after it. -/
def parameters? (s : TokenStream) (k : Nat) : Option (Nat × Nat) :=
  if s.has k isFunctionKeyword then do
    let opener ← s.findNext (· == .opens .round) (k + 1)
    let closer ← s.partner? opener
    some (opener, closer)
  else none

/-- The body of the keyword at `k` goes from `o` to `c`: the first brace in the keyword's brackets
opens it, before any semicolon and, for a function, after its parameter list. -/
structure OwnBody (s : TokenStream) (k o c : Nat) : Prop where
  lt : k < o
  opener : s.isAt o (.opens .curly) = true
  closer : s.partner? o = some c
  level : s.sameLevel k o = true
  first : ∀ j, j < o → k < j → s.sameLevel k j = true → s.has j endsHeader = false
  parameters : s.has k isFunctionKeyword = true → (s.parameters? k).any (·.2 < o) = true

/-- A brace or a semicolon in the header from `k` to `o` stands in the parameter list. -/
def PlainHeader (s : TokenStream) (k o : Nat) : Prop :=
  ∀ j, j < o → k < j → s.has j endsHeader = true → (s.parameters? k).any (inside j) = true

/-- To be the own body is decided by the tokens up to its brace. -/
theorem ownBody_iff {k o c : Nat} :
    s.OwnBody k o c ↔
      k < o ∧ s.isAt o (.opens .curly) = true ∧ s.partner? o = some c ∧
        s.sameLevel k o = true ∧
        (∀ j, j < o → k < j → s.sameLevel k j = true → s.has j endsHeader = false) ∧
        (s.has k isFunctionKeyword = true → (s.parameters? k).any (·.2 < o) = true) :=
  ⟨fun h => ⟨h.lt, h.opener, h.closer, h.level, h.first, h.parameters⟩,
    fun ⟨hlt, hopener, hcloser, hlevel, hfirst, hparameters⟩ =>
      ⟨hlt, hopener, hcloser, hlevel, hfirst, hparameters⟩⟩

instance (s : TokenStream) (k o c : Nat) : Decidable (s.OwnBody k o c) :=
  decidable_of_iff _ ownBody_iff.symm

instance (s : TokenStream) (k o : Nat) : Decidable (s.PlainHeader k o) :=
  inferInstanceAs (Decidable (∀ j, j < o → k < j → _ → _))

/-- The bodies of the keyword at `k`, found among all pairs. -/
def ownBodies (s : TokenStream) (k : Nat) : List (Nat × Nat) :=
  (List.range s.size).filterMap fun o =>
    (s.partner? o).bind fun c => if s.OwnBody k o c then some (o, c) else none

namespace OwnBody

variable {k o c k' o' c' : Nat}

theorem opener_lt_closer (h : s.OwnBody k o c) : o < c := lt_of_partner? h.opener h.closer

theorem kind?_opener (h : s.OwnBody k o c) : s.kind? o = some (.opens .curly) :=
  isAt_iff.1 h.opener

/-- A body closes with a brace. -/
theorem kind?_closer (h : s.OwnBody k o c) : s.kind? c = some (.closes .curly) := by
  obtain ⟨-, d, hopen, hclose⟩ := kind?_of_mem_pairs (mem_pairs_of_lt h.closer h.opener_lt_closer)
  cases h.kind?_opener.symm.trans hopen
  exact hclose

theorem endsHeader_opener (h : s.OwnBody k o c) : s.has o endsHeader = true :=
  has_of_isAt h.opener endsHeader

/-- The brackets around the keyword are those around the brace. -/
theorem inside_iff_inside (h : s.OwnBody k o c) {a b : Nat} (hpartner : s.partner? a = some b)
    (hab : a < b) : a < k ∧ k < b ↔ a < o ∧ o < b :=
  sameLevel_iff.1 h.level a b hpartner hab

/-- A search that starts in the header, past the parameter list, finds the brace of the body. -/
theorem findNext_eq (h : s.OwnBody k o c) (hplain : s.PlainHeader k o) {start : Nat}
    (hk : k < start) (ho : start ≤ o) (hparameters : ∀ p ∈ s.parameters? k, p.2 < start) :
    s.findNext endsHeader start = some o := by
  refine findNext_eq_some_iff.2 ⟨ho, h.endsHeader_opener, fun j hj hjo => ?_⟩
  cases hends : s.has j endsHeader with
  | false => rfl
  | true =>
    obtain ⟨⟨a, b⟩, hlist, hinside⟩ :=
      (Option.any_eq_true _ _).1 (hplain j hjo (Nat.lt_of_lt_of_le hk hj) hends)
    have hlt := hparameters (a, b) hlist
    have := inside_iff.1 hinside
    simp only at hlt
    omega

/-- **Bodies are found behind plain headers.** -/
theorem body?_eq (h : s.OwnBody k o c) (hplain : s.PlainHeader k o) :
    s.body? k = some (o, c) := by
  have hstart : ∃ start, s.bodySearchStart? k = some start ∧
      s.findNext endsHeader start = some o := by
    cases hfunction : s.has k isFunctionKeyword with
    | false =>
      refine ⟨k + 1, by simp [bodySearchStart?, hfunction], ?_⟩
      exact h.findNext_eq hplain (Nat.lt_succ_self k) h.lt (by simp [parameters?, hfunction])
    | true =>
      obtain ⟨⟨a, b⟩, hlist, hbo⟩ := (Option.any_eq_true _ _).1 (h.parameters hfunction)
      have hparts := hlist
      simp only [parameters?, hfunction, if_true, Option.bind_eq_bind, Option.bind_eq_some_iff,
        Option.some.injEq, Prod.mk.injEq] at hparts
      obtain ⟨opener, hopener, closer, hcloser, rfl, rfl⟩ := hparts
      obtain ⟨hle, hround, -⟩ := findNext_eq_some_iff.1 hopener
      have hat : s.isAt opener (.opens .round) = true := by
        simpa [has, isAt, Option.any_eq_true] using hround
      have hlt := lt_of_partner? hat hcloser
      have hle' : closer + 1 ≤ o := of_decide_eq_true hbo
      refine ⟨closer + 1, by simp [bodySearchStart?, hfunction, hopener, hcloser], ?_⟩
      refine h.findNext_eq hplain (by omega) hle' fun p hp => ?_
      cases hlist.symm.trans hp
      exact Nat.lt_succ_self closer
  obtain ⟨start, hsearch, hfirst⟩ := hstart
  exact body?_eq_some_iff.2 ⟨start, hsearch, hfirst, h.opener, h.closer⟩

/-- A keyword has one body. -/
theorem unique (h : s.OwnBody k o c) (h' : s.OwnBody k o' c') : o = o' ∧ c = c' := by
  have hopeners : o = o' := by
    rcases Nat.lt_trichotomy o o' with hlt | heq | hgt
    · have hnot := h'.first o hlt h.lt h.level
      rw [h.endsHeader_opener] at hnot
      cases hnot
    · exact heq
    · have hnot := h.first o' hgt h'.lt h'.level
      rw [h'.endsHeader_opener] at hnot
      cases hnot
  subst hopeners
  exact ⟨rfl, Option.some.inj (h.closer.symm.trans h'.closer)⟩

/-- Behind a plain header the end that is looked up is that of the own body. -/
theorem bodyCloser?_eq (h : s.OwnBody k o c) (hplain : s.PlainHeader k o) :
    s.bodyCloser? k = some c :=
  bodyCloser?_of_body? (h.body?_eq hplain)

/-- A keyword in the header opens its body no later. -/
theorem opener_le (h : s.OwnBody k o c) (h' : s.OwnBody k' o' c') (hkk' : k < k') (hk'o : k' < o) :
    o' ≤ o := by
  by_contra hlt
  rw [Nat.not_le] at hlt
  -- The outer body's brace is none for the inner keyword, so some brackets stand between them.
  have hlevel : s.sameLevel k' o = false := by
    by_contra hlevel
    have hnot := h'.first o hlt hk'o (Bool.not_eq_false _ ▸ hlevel)
    rw [h.endsHeader_opener] at hnot
    cases hnot
  obtain ⟨a, b, hpartner, hab, hne⟩ := exists_pair_of_not_sameLevel hlevel
  have houter := h.inside_iff_inside hpartner hab
  have hinner := h'.inside_iff_inside hpartner hab
  omega

/-- **Bodies nest.**  What starts inside of a body, or in the header in front of it, ends no
later. -/
theorem closer_le (h : s.OwnBody k o c) (h' : s.OwnBody k' o' c') (hkk' : k < k') (hk'c : k' < c)
    (hk'o : k' ≠ o) : c' ≤ c := by
  have hoc := h.opener_lt_closer
  have hoc' := h'.opener_lt_closer
  rcases Nat.lt_or_gt_of_ne hk'o with hheader | hbody
  · rcases Nat.lt_or_eq_of_le (h.opener_le h' hkk' hheader) with hlt | rfl
    · have hinner := h.inside_iff_inside h'.closer hoc'
      have hlt' := h'.lt
      rcases nested_of_partner? h'.closer hoc' h.closer hoc hlt with hend | hend
      · omega
      · omega
    · exact Nat.le_of_eq (Option.some.inj (h'.closer.symm.trans h.closer))
  · have houter := h'.inside_iff_inside h.closer hoc
    rcases nested_of_partner? h.closer hoc h'.closer hoc' (by omega) with hend | hend
    · omega
    · omega

end OwnBody

/-- The own bodies of a keyword are listed. -/
theorem mem_ownBodies_iff {k : Nat} {body : Nat × Nat} :
    body ∈ s.ownBodies k ↔ s.OwnBody k body.1 body.2 := by
  simp only [ownBodies, List.mem_filterMap, List.mem_range, Option.bind_eq_some_iff]
  constructor
  · rintro ⟨o, ho, c, hpartner, hbody⟩
    split at hbody
    · next hown =>
      cases hbody
      exact hown
    · cases hbody
  · intro hown
    have hlt := (lt_size_of_partner? hown.closer).1
    exact ⟨body.1, hlt, body.2, hown.closer, if_pos hown⟩

end PhpLint.TokenStream

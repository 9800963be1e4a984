import Mathlib.Tactic.ByContra
import PhpLint.TokenStream.Scope

/-!
# What a search answers

The two searches of a stream answer the nearest index that fits: `findNext_eq_some_iff` and
`findBefore_eq_some_iff`.  They answer nothing when no index on their side fits
(`findNext_eq_none_iff`, `findBefore_eq_none_iff`).
-/

namespace PhpLint.TokenStream

variable {s : TokenStream} {p : Kind → Bool} {i j : Nat}

theorem eq_of_isAt {k k' : Kind} (h : s.isAt i k = true) (h' : s.isAt i k' = true) : k = k' :=
  Option.some.inj ((isAt_iff.1 h).symm.trans (isAt_iff.1 h'))

/-- A bounded search finds nothing when nothing within the bound fits. -/
theorem findFrom_eq_none_iff {n : Nat} :
    s.findFrom p n i = none ↔ ∀ k, i ≤ k → k < i + n → s.has k p = false := by
  induction n generalizing i with
  | zero =>
    constructor
    · intro _ k hik hk
      omega
    · exact fun _ => rfl
  | succ n ih =>
    rw [findFrom]
    by_cases hi : s.has i p = true
    · rw [if_pos hi]
      constructor
      · intro hnone
        cases hnone
      · intro hnone
        rw [hnone i (Nat.le_refl i) (by omega)] at hi
        cases hi
    · rw [if_neg hi, ih]
      constructor
      · intro hnone k hik hk
        rcases Nat.lt_or_eq_of_le hik with hlt | rfl
        · exact hnone k hlt (by omega)
        · simpa using hi
      · exact fun hnone k hik hk => hnone k (by omega) (by omega)

/-- A search forward finds nothing when nothing from there on fits. -/
theorem findNext_eq_none_iff : s.findNext p i = none ↔ ∀ k, i ≤ k → s.has k p = false := by
  rw [findNext, findFrom_eq_none_iff]
  constructor
  · intro hnone k hik
    by_contra hk
    have hsize := lt_size_of_has (eq_true_of_ne_false hk)
    exact hk (hnone k hik (by omega))
  · exact fun hnone k hik _ => hnone k hik

/-- A search from an index that fits ends there. -/
theorem findNext_of_has (h : s.has i p = true) : s.findNext p i = some i :=
  findNext_eq_some_iff.2 ⟨Nat.le_refl i, h, fun _ hik hki => absurd hki (Nat.not_lt_of_le hik)⟩

/-- A search goes past an index that does not fit. -/
theorem findNext_of_not_has (h : s.has i p = false) : s.findNext p i = s.findNext p (i + 1) := by
  ext j
  rw [findNext_eq_some_iff, findNext_eq_some_iff]
  constructor
  · rintro ⟨hij, hj, hbetween⟩
    have hne : i ≠ j := by
      rintro rfl
      rw [h] at hj
      cases hj
    exact ⟨by omega, hj, fun k hik hkj => hbetween k (by omega) hkj⟩
  · rintro ⟨hij, hj, hbetween⟩
    refine ⟨by omega, hj, fun k hik hkj => ?_⟩
    rcases Nat.lt_or_eq_of_le hik with hlt | rfl
    · exact hbetween k hlt hkj
    · exact h

/-- A search back finds the nearest index before that fits. -/
theorem findBefore_eq_some_iff :
    s.findBefore p i = some j ↔
      j < i ∧ s.has j p = true ∧ ∀ k, j < k → k < i → s.has k p = false := by
  rw [findBefore, findBelow_eq_some_iff]
  constructor
  · intro ⟨hlt, hhas, hlast⟩
    refine ⟨by omega, hhas, fun k hjk hki => ?_⟩
    by_contra hk
    have hsize := lt_size_of_has (eq_true_of_ne_false hk)
    exact hk (hlast k hjk (by omega))
  · intro ⟨hlt, hhas, hlast⟩
    have hsize := lt_size_of_has hhas
    exact ⟨by omega, hhas, fun k hjk hk => hlast k hjk (by omega)⟩

/-- A search down from a bound finds nothing when nothing below it fits. -/
theorem findBelow_eq_none_iff {n : Nat} :
    s.findBelow p n = none ↔ ∀ k, k < n → s.has k p = false := by
  induction n with
  | zero =>
    constructor
    · intro _ k hk
      omega
    · exact fun _ => rfl
  | succ n ih =>
    rw [findBelow]
    by_cases hn : s.has n p = true
    · rw [if_pos hn]
      constructor
      · intro hnone
        cases hnone
      · intro hnone
        rw [hnone n (Nat.lt_succ_self n)] at hn
        cases hn
    · rw [if_neg hn, ih]
      constructor
      · intro hnone k hk
        rcases Nat.lt_succ_iff_lt_or_eq.1 hk with hlt | rfl
        · exact hnone k hlt
        · simpa using hn
      · exact fun hnone k hk => hnone k (Nat.lt_succ_of_lt hk)

/-- A search back finds nothing when nothing before fits. -/
theorem findBefore_eq_none_iff : s.findBefore p i = none ↔ ∀ k, k < i → s.has k p = false := by
  rw [findBefore, findBelow_eq_none_iff]
  constructor
  · intro hnone k hki
    by_contra hk
    have hsize := lt_size_of_has (eq_true_of_ne_false hk)
    exact hk (hnone k (by omega))
  · exact fun hnone k hk => hnone k (by omega)

theorem has_of_findBefore (h : s.findBefore p i = some j) : s.has j p = true :=
  (findBefore_eq_some_iff.1 h).2.1

theorem has_of_findNext (h : s.findNext p i = some j) : s.has j p = true :=
  (findNext_eq_some_iff.1 h).2.1

/-- The tags of a doc comment are tags. -/
theorem isAt_docTags (s : TokenStream) (i : Nat) :
    ∀ tag ∈ s.docTags i, s.isAt tag .docTag = true := by
  intro tag htag
  unfold docTags at htag
  split at htag
  · exact (List.mem_filter.1 htag).2
  · cases htag

theorem exists_kind? (hi : i < s.size) : ∃ k, s.kind? i = some k := by
  rw [kind?, token?, Array.getElem?_eq_getElem hi]
  exact ⟨_, rfl⟩

/-- A declared name is the text of an identifier. -/
theorem exists_of_declaredName? {name : Text} (h : s.declaredName? i = some name) :
    ∃ k, s.isAt k .identifier = true ∧ s.content k = name := by
  have hidentifier {k : Nat}
      (h : (if s.isAt k .identifier then some (s.content k) else none) = some name) :
      ∃ k, s.isAt k .identifier = true ∧ s.content k = name := by
    obtain ⟨hat, heq⟩ := Option.ite_none_right_eq_some.1 h
    exact ⟨k, hat, Option.some.inj heq⟩
  unfold declaredName? at h
  obtain ⟨next, -, hnext⟩ := Option.bind_eq_some_iff.1 h
  dsimp only at hnext
  split at hnext
  · obtain ⟨k, -, hk⟩ := Option.bind_eq_some_iff.1 hnext
    exact hidentifier hk
  · exact hidentifier hnext

end PhpLint.TokenStream

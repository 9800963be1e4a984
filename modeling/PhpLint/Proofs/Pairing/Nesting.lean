import PhpLint.Proofs.Pairing.Pass
import PhpLint.TokenStream

/-!
# Pairs nest

The partner table of a stream holds the pairs of the pass and nothing else: since no two pairs share
an end, entering one never overwrites another (`partner?_eq_some_iff`).  So what the pass keeps
holds of every stream, balanced or not, lexed or made by hand: partners are partners of each other,
the smaller index opens and the larger closes the same sort of delimiter, pairs lie apart or one
inside the other, and what opens inside of a pair is closed there.
-/

namespace PhpLint

namespace Pairing

/-- Two pairs, of which the second closes later, share no end. -/
theorem Apart.ends_ne {p q : Nat × Nat} (h : Apart p q) (hp : p.1 < p.2) :
    p.1 ≠ q.1 ∧ p.1 ≠ q.2 ∧ p.2 ≠ q.1 ∧ p.2 ≠ q.2 := by
  obtain ⟨hclosers, hopener⟩ := h
  omega

@[simp] theorem size_enter (table : Array (Option Nat)) (p : Nat × Nat) :
    (enter table p).size = table.size := by
  simp [enter]

/-- Entering pairs leaves the entries of all other indices. -/
theorem getElem?_foldl_enter_of_ne {ps : List (Nat × Nat)} {i : Nat}
    (h : ∀ p ∈ ps, p.1 ≠ i ∧ p.2 ≠ i) (table : Array (Option Nat)) :
    (ps.foldl enter table)[i]? = table[i]? := by
  induction ps generalizing table with
  | nil => rfl
  | cons p ps ih =>
    obtain ⟨hopener, hcloser⟩ := h p List.mem_cons_self
    rw [List.foldl_cons, ih fun q hq => h q (List.mem_cons_of_mem _ hq)]
    simp [enter, hopener, hcloser]

/-- Pairs that share no ends are all found in the table they are entered into. -/
theorem getElem?_foldl_enter {ps : List (Nat × Nat)} {table : Array (Option Nat)}
    (hapart : ps.Pairwise Apart) (hends : ∀ p ∈ ps, p.1 < p.2 ∧ p.2 < table.size) {o c : Nat}
    (hpair : (o, c) ∈ ps) :
    (ps.foldl enter table)[o]? = some (some c) ∧ (ps.foldl enter table)[c]? = some (some o) := by
  induction ps generalizing table with
  | nil => cases hpair
  | cons p ps ih =>
    obtain ⟨hfirst, hrest⟩ := List.pairwise_cons.1 hapart
    obtain ⟨hlt, hsize⟩ := hends p List.mem_cons_self
    rw [List.foldl_cons]
    rcases List.mem_cons.1 hpair with rfl | hpair
    · -- The later pairs share no end with this one and leave its two entries.
      have hne := fun q hq => (hfirst q hq).ends_ne hlt
      rw [getElem?_foldl_enter_of_ne fun q hq => ⟨(hne q hq).1.symm, (hne q hq).2.1.symm⟩,
        getElem?_foldl_enter_of_ne fun q hq => ⟨(hne q hq).2.2.1.symm, (hne q hq).2.2.2.symm⟩]
      have ho : o < table.size := Nat.lt_trans hlt hsize
      have hoc : c ≠ o := (Nat.ne_of_lt hlt).symm
      simp only at hsize
      simp [enter, ho, hsize, hoc]
    · refine ih hrest (fun q hq => ?_) hpair
      simpa using hends q (List.mem_cons_of_mem _ hq)

/-- The pairs of a list of kinds lie apart or around each other. -/
theorem pairwise_apart_pairs (kinds : List Kind) : (pairs kinds).Pairwise Apart :=
  pairwise_apart_pairsFrom ordered_nil kinds

/-- Two pairs are the same, or lie apart in one order or the other. -/
theorem apart_of_mem_pairs {kinds : List Kind} {p q : Nat × Nat} (hp : p ∈ pairs kinds)
    (hq : q ∈ pairs kinds) : p = q ∨ Apart p q ∨ Apart q p := by
  have hapart := pairwise_apart_pairs kinds
  exact List.Pairwise.forall_of_forall_of_flip (R := fun p q => p = q ∨ Apart p q ∨ Apart q p)
    (fun _ _ => .inl rfl) (hapart.imp fun h => .inr (.inl h)) (hapart.imp fun h => .inr (.inr h))
    hp hq

/-- What opens inside of a pair is closed there. -/
theorem exists_closer_of_mem_pairs {kinds : List Kind} {o c k : Nat} {d : Delimiter}
    (hpair : (o, c) ∈ pairs kinds) (hk : kinds[k]? = some (.opens d)) (hok : o < k)
    (hkc : k < c) : ∃ e, e < c ∧ (k, e) ∈ pairs kinds :=
  exists_closer_of_inside ordered_nil hpair (.inr ⟨Nat.zero_le k, d, hk⟩) hok hkc

end Pairing

namespace TokenStream

/-- The kinds of the tokens of a stream. -/
def kinds (s : TokenStream) : List Kind := s.tokens.toList.map Token.kind

theorem getElem?_kinds (s : TokenStream) (i : Nat) : s.kinds[i]? = s.kind? i := by
  simp [kinds, kind?, token?]

/-- The partners of a stream are the two ends of its pairs. -/
theorem partner?_eq_some_iff {s : TokenStream} {i j : Nat} :
    s.partner? i = some j ↔ (i, j) ∈ Pairing.pairs s.kinds ∨ (j, i) ∈ Pairing.pairs s.kinds := by
  refine ⟨mem_pairs_of_partner?, fun h => ?_⟩
  have hends : ∀ p ∈ Pairing.pairs s.kinds,
      p.1 < p.2 ∧ p.2 < (Array.replicate s.tokens.size (none : Option Nat)).size := by
    intro p hp
    obtain ⟨hlt, d, -, hcloser⟩ := Pairing.lt_of_mem_pairs hp
    have hsize := (List.getElem?_eq_some_iff.1 hcloser).1
    exact ⟨hlt, by simpa [kinds] using hsize⟩
  have hentry {o c : Nat} (hpair : (o, c) ∈ Pairing.pairs s.kinds) :=
    Pairing.getElem?_foldl_enter (Pairing.pairwise_apart_pairs s.kinds) hends hpair
  simp only [partner?, s.partners_eq, Pairing.partners, Option.join_eq_some_iff]
  rcases h with h | h
  · exact (hentry h).1
  · exact (hentry h).2

/-- The ends of a pair open and close the same sort, in this order. -/
theorem kind?_of_mem_pairs {s : TokenStream} {o c : Nat} (h : (o, c) ∈ Pairing.pairs s.kinds) :
    o < c ∧ ∃ d, s.kind? o = some (.opens d) ∧ s.kind? c = some (.closes d) := by
  simpa only [getElem?_kinds] using Pairing.lt_of_mem_pairs h

/-- Both ends of a pair lie in the stream. -/
theorem lt_size_of_partner? {s : TokenStream} {i j : Nat} (h : s.partner? i = some j) :
    i < s.size ∧ j < s.size := by
  have hends {o c : Nat} (hpair : (o, c) ∈ Pairing.pairs s.kinds) : o < s.size ∧ c < s.size := by
    obtain ⟨hlt, d, -, hcloser⟩ := kind?_of_mem_pairs hpair
    have hc := lt_size_of_has (has_of_isAt (isAt_iff.2 hcloser) fun _ => true)
    exact ⟨Nat.lt_trans hlt hc, hc⟩
  rcases partner?_eq_some_iff.1 h with hpair | hpair
  · exact hends hpair
  · exact (hends hpair).symm

/-- Of two partners, the one in front is the first of their pair. -/
theorem mem_pairs_of_lt {s : TokenStream} {i j : Nat} (h : s.partner? i = some j) (hij : i < j) :
    (i, j) ∈ Pairing.pairs s.kinds := by
  rcases partner?_eq_some_iff.1 h with h | h
  · exact h
  · exact absurd (kind?_of_mem_pairs h).1 (Nat.lt_asymm hij)

/-- An opener and the closer of its sort behind it, no delimiter between them, are partners. -/
theorem partner?_of_adjacent {s : TokenStream} {i j : Nat} {d : Delimiter} (hij : i < j)
    (hi : s.kind? i = some (.opens d)) (hj : s.kind? j = some (.closes d))
    (hplain : ∀ k, i < k → k < j → s.has k Kind.isDelimiter = false) :
    s.partner? i = some j ∧ s.partner? j = some i := by
  rw [← getElem?_kinds] at hi hj
  obtain ⟨xs, ys, zs, hkinds, rfl, rfl⟩ := exists_append_of_getElem? hij hi hj
  have hbetween : ∀ k ∈ ys, k.isDelimiter = false := by
    intro k hk
    obtain ⟨n, hn⟩ := List.mem_iff_getElem?.1 hk
    have hlt := (List.getElem?_eq_some_iff.1 hn).1
    have hkind : s.kind? (xs.length + 1 + n) = some k := by
      rw [← getElem?_kinds, hkinds, List.getElem?_append_right (by omega),
        show xs.length + 1 + n - xs.length = n + 1 by omega, List.getElem?_cons_succ,
        List.getElem?_append_left hlt, hn]
    simpa [has, hkind] using hplain (xs.length + 1 + n) (by omega) (by omega)
  have hpair := Pairing.mem_pairs_of_adjacent xs d hbetween zs
  rw [← hkinds] at hpair
  exact ⟨partner?_eq_some_iff.2 (.inl hpair), partner?_eq_some_iff.2 (.inr hpair)⟩

/-- The partners of a stream form nested pairs of delimiters. -/
structure WellPaired (s : TokenStream) : Prop where
  symm : ∀ i j, s.partner? i = some j → s.partner? j = some i
  ne_self : ∀ i, s.partner? i ≠ some i
  /-- The smaller index opens what the larger one closes. -/
  delimiters : ∀ i j, s.partner? i = some j → i < j →
    ∃ d, s.isAt i (.opens d) = true ∧ s.isAt j (.closes d) = true
  /-- Two pairs lie one behind the other or one inside of the other. -/
  nested : ∀ i j k l, s.partner? i = some j → i < j → s.partner? k = some l → k < l → i < k →
    j < k ∨ l < j
  /-- What opens inside of a pair is closed inside of it. -/
  inside : ∀ i j k d, s.partner? i = some j → i < k → k < j → s.isAt k (.opens d) = true →
    ∃ l, s.partner? k = some l ∧ k < l ∧ l < j
  /-- No pair is missed where an opener meets its closer, no delimiter between them. -/
  adjacent : ∀ i j d, i < j → s.isAt i (.opens d) = true → s.isAt j (.closes d) = true →
    (∀ k, i < k → k < j → s.has k Kind.isDelimiter = false) → s.partner? i = some j

/-- **Pairs nest.**  The partners of every stream, balanced or not, form nested pairs. -/
theorem wellPaired (s : TokenStream) : WellPaired s := by
  constructor
  case symm =>
    intro i j h
    rw [partner?_eq_some_iff] at h ⊢
    exact h.symm
  case ne_self =>
    intro i h
    rcases partner?_eq_some_iff.1 h with h | h
    · exact Nat.lt_irrefl i (kind?_of_mem_pairs h).1
    · exact Nat.lt_irrefl i (kind?_of_mem_pairs h).1
  case delimiters =>
    intro i j h hij
    obtain ⟨-, d, hi, hj⟩ := kind?_of_mem_pairs (mem_pairs_of_lt h hij)
    exact ⟨d, isAt_iff.2 hi, isAt_iff.2 hj⟩
  case nested =>
    intro i j k l hi hij hk hkl hik
    rcases Pairing.apart_of_mem_pairs (mem_pairs_of_lt hi hij) (mem_pairs_of_lt hk hkl) with
      h | ⟨hclosers, hopeners⟩ | ⟨hclosers, hopeners⟩
    · cases h
      exact absurd hik (Nat.lt_irrefl i)
    · simp only at hclosers hopeners
      omega
    · simp only at hclosers hopeners
      omega
  case inside =>
    intro i j k d hi hik hkj hk
    have hopens : s.kinds[k]? = some (.opens d) := by
      rw [getElem?_kinds]
      exact isAt_iff.1 hk
    obtain ⟨l, hlj, hpair⟩ := Pairing.exists_closer_of_mem_pairs
      (mem_pairs_of_lt hi (Nat.lt_trans hik hkj)) hopens hik hkj
    exact ⟨l, partner?_eq_some_iff.2 (.inl hpair), (kind?_of_mem_pairs hpair).1, hlj⟩
  case adjacent =>
    intro i j d hij hi hj hplain
    exact (partner?_of_adjacent hij (isAt_iff.1 hi) (isAt_iff.1 hj) hplain).1

end TokenStream

end PhpLint

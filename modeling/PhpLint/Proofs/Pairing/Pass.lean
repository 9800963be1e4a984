import PhpLint.TokenStream.Pairing

/-!
# One pass with a stack

The pass over a list of kinds, one kind after another.  `step` says all that a kind can do to the
openers that wait: join them, close the innermost one, or nothing (`step_cases`).

Openers wait in the order of their indices, the innermost with the largest (`Ordered`), and from
this alone follows how the pairs lie: of two pairs the one that closes later goes around the other
or stands behind it (`pairwise_apart_pairsFrom`), and what opens inside of a pair closes there
(`exists_closer_of_inside`).
-/

namespace PhpLint

/-- A list falls into parts around the elements at two indices. -/
theorem exists_append_of_getElem? {α : Type} {l : List α} {i j : Nat} {a b : α} (hij : i < j)
    (hi : l[i]? = some a) (hj : l[j]? = some b) :
    ∃ xs ys zs, l = xs ++ a :: (ys ++ b :: zs) ∧ xs.length = i ∧ i + 1 + ys.length = j := by
  obtain ⟨hjl, rfl⟩ := List.getElem?_eq_some_iff.1 hj
  obtain ⟨hil, rfl⟩ := List.getElem?_eq_some_iff.1 hi
  refine ⟨l.take i, (l.take j).drop (i + 1), l.drop (j + 1), ?_, by simp; omega, by simp; omega⟩
  have hrest : l.drop (i + 1) = (l.take j).drop (i + 1) ++ l[j] :: l.drop (j + 1) := by
    rw [← List.drop_eq_getElem_cons hjl, ← List.drop_append_of_le_length (by simp; omega),
      List.take_append_drop]
  rw [← hrest, ← List.drop_eq_getElem_cons hil, List.take_append_drop]

/-- An opener or a closer. -/
def Kind.isDelimiter : Kind → Bool
  | opens _ | closes _ => true
  | _ => false

namespace Pairing

/-- What the kind at index `i` makes of the waiting openers, and the pair it completes. -/
def step (i : Nat) (waiting : List Waiting) : Kind → List Waiting × Option (Nat × Nat)
  | .opens d => (⟨i, d⟩ :: waiting, none)
  | .closes d =>
    match waiting with
    | [] => ([], none)
    | w :: outer => if w.delimiter = d then (outer, some (w.index, i)) else (waiting, none)
  | _ => (waiting, none)

/-- The pass is one step after another. -/
theorem pairsFrom_cons (i : Nat) (waiting : List Waiting) (k : Kind) (kinds : List Kind) :
    pairsFrom i waiting (k :: kinds) =
      (step i waiting k).2.toList ++ pairsFrom (i + 1) (step i waiting k).1 kinds := by
  cases k
  case closes d =>
    cases waiting with
    | nil => rfl
    | cons w outer => by_cases h : w.delimiter = d <;> simp [pairsFrom, step, h]
  all_goals rfl

/-- A kind opens and waits, or closes the innermost opener, or changes nothing; only an opener
opens. -/
theorem step_cases (i : Nat) (waiting : List Waiting) (k : Kind) :
    (∃ d, k = .opens d ∧ step i waiting k = (⟨i, d⟩ :: waiting, none)) ∨
    (∃ w outer, waiting = w :: outer ∧ k = .closes w.delimiter ∧
      step i waiting k = (outer, some (w.index, i))) ∨
    ((∀ d, k ≠ .opens d) ∧ step i waiting k = (waiting, none)) := by
  cases k
  case opens d => exact .inl ⟨d, rfl, rfl⟩
  case closes d =>
    right
    cases waiting with
    | nil => exact .inr ⟨fun _ => Kind.noConfusion, rfl⟩
    | cons w outer =>
      by_cases h : w.delimiter = d
      · exact .inl ⟨w, outer, rfl, by rw [h], by simp [step, h]⟩
      · exact .inr ⟨fun _ => Kind.noConfusion, by simp [step, h]⟩
  all_goals exact .inr (.inr ⟨fun _ => Kind.noConfusion, rfl⟩)

/-! ## Parts of a list -/

/-- The openers that wait after a list of kinds. -/
def waitingAfter (i : Nat) (waiting : List Waiting) : List Kind → List Waiting
  | [] => waiting
  | k :: kinds => waitingAfter (i + 1) (step i waiting k).1 kinds

/-- The pass over two lists is the pass over one and, with what waits then, over the other. -/
theorem pairsFrom_append (i : Nat) (waiting : List Waiting) (xs ys : List Kind) :
    pairsFrom i waiting (xs ++ ys) =
      pairsFrom i waiting xs ++ pairsFrom (i + xs.length) (waitingAfter i waiting xs) ys := by
  induction xs generalizing i waiting with
  | nil => rfl
  | cons k xs ih =>
    rw [List.cons_append, pairsFrom_cons, pairsFrom_cons, ih, List.append_assoc, List.length_cons,
      waitingAfter, Nat.add_assoc, Nat.add_comm 1]

/-- What waits after two lists is what waits after the second, with what the first leaves. -/
theorem waitingAfter_append (i : Nat) (waiting : List Waiting) (xs ys : List Kind) :
    waitingAfter i waiting (xs ++ ys) =
      waitingAfter (i + xs.length) (waitingAfter i waiting xs) ys := by
  induction xs generalizing i waiting with
  | nil => rfl
  | cons k xs ih =>
    rw [List.cons_append, waitingAfter, ih, waitingAfter, List.length_cons, Nat.add_assoc,
      Nat.add_comm 1]

/-- Kinds that are no delimiters complete no pair and leave the waiting openers as they are. -/
theorem pairsFrom_append_of_plain (i : Nat) (waiting : List Waiting) {xs : List Kind}
    (hplain : ∀ k ∈ xs, k.isDelimiter = false) (ys : List Kind) :
    pairsFrom i waiting (xs ++ ys) = pairsFrom (i + xs.length) waiting ys := by
  induction xs generalizing i with
  | nil => rfl
  | cons k xs ih =>
    have hstep : step i waiting k = (waiting, none) := by
      have hk := hplain k List.mem_cons_self
      cases k <;> first | rfl | cases hk
    rw [List.cons_append, pairsFrom_cons, hstep, ih (i + 1) fun k hk => hplain k (by simp [hk]),
      List.length_cons, Nat.add_assoc, Nat.add_comm 1]
    rfl

/-- An opener and the closer of its sort right behind it, no delimiter between them, are a pair. -/
theorem mem_pairs_of_adjacent (xs : List Kind) (d : Delimiter) {ys : List Kind}
    (hplain : ∀ k ∈ ys, k.isDelimiter = false) (zs : List Kind) :
    (xs.length, xs.length + 1 + ys.length) ∈
      pairs (xs ++ .opens d :: (ys ++ .closes d :: zs)) := by
  rw [pairs, pairsFrom_append, pairsFrom_cons, step, Option.toList_none, List.nil_append,
    pairsFrom_append_of_plain _ _ hplain, pairsFrom_cons]
  simp [step]

/-! ## Order -/

/-- The waiting openers stand before index `i`, each inner one behind the outer ones. -/
def Ordered (i : Nat) (waiting : List Waiting) : Prop :=
  (i :: waiting.map Waiting.index).Pairwise (· > ·)

theorem ordered_nil : Ordered 0 [] := List.pairwise_singleton _ _

/-- What waits stands before the index. -/
theorem Ordered.lt {i : Nat} {waiting : List Waiting} (h : Ordered i waiting) {w : Waiting}
    (hw : w ∈ waiting) : w.index < i :=
  (List.pairwise_cons.1 h).1 _ (List.mem_map_of_mem hw)

/-- What waits below an opener stands before that opener. -/
theorem Ordered.inner {i : Nat} {w : Waiting} {outer : List Waiting} (h : Ordered i (w :: outer)) :
    Ordered w.index outer :=
  (List.pairwise_cons.1 h).2

/-- What stands before an index stands before every later one. -/
theorem Ordered.mono {i j : Nat} {waiting : List Waiting} (h : Ordered i waiting) (hij : i ≤ j) :
    Ordered j waiting := by
  obtain ⟨hfirst, hrest⟩ := List.pairwise_cons.1 h
  exact List.pairwise_cons.2 ⟨fun n hn => Nat.lt_of_lt_of_le (hfirst n hn) hij, hrest⟩

/-- A step keeps the order. -/
theorem Ordered.step {i : Nat} {waiting : List Waiting} (h : Ordered i waiting) (k : Kind) :
    Ordered (i + 1) (step i waiting k).1 := by
  rcases step_cases i waiting k with ⟨d, -, hstep⟩ | ⟨w, outer, rfl, -, hstep⟩ | ⟨-, hstep⟩
  · rw [hstep]
    refine List.pairwise_cons.2 ⟨fun n hn => ?_, h⟩
    rcases List.mem_cons.1 hn with rfl | hn
    · exact Nat.lt_succ_self _
    · exact Nat.lt_succ_of_lt ((List.pairwise_cons.1 h).1 n hn)
  · rw [hstep]
    exact h.inner.mono (Nat.le_succ_of_le (Nat.le_of_lt (h.lt List.mem_cons_self)))
  · rw [hstep]
    exact h.mono (Nat.le_succ i)

/-- Of two pairs the second closes later, and goes around the first or stands behind it. -/
def Apart (p q : Nat × Nat) : Prop := p.2 < q.2 ∧ (q.1 < p.1 ∨ p.2 < q.1)

/-- **No two pairs cross.**  They come in the order of their closers, each later one around an
earlier one or behind it. -/
theorem pairwise_apart_pairsFrom {i : Nat} {waiting : List Waiting} (h : Ordered i waiting)
    (kinds : List Kind) : (pairsFrom i waiting kinds).Pairwise Apart := by
  induction kinds generalizing i waiting with
  | nil => exact List.Pairwise.nil
  | cons k kinds ih =>
    have hrest := ih (h.step k)
    rw [pairsFrom_cons]
    rcases step_cases i waiting k with ⟨d, -, hstep⟩ | ⟨w, outer, rfl, -, hstep⟩ | ⟨-, hstep⟩
    · simpa [hstep] using hrest
    · rw [hstep] at hrest ⊢
      refine List.pairwise_cons.2 ⟨fun q hq => ?_, hrest⟩
      obtain ⟨hcloser, d, -, hopener⟩ := fits_of_mem_pairsFrom hq
      refine ⟨hcloser, ?_⟩
      rcases hopener with hopener | ⟨hopener, -, -⟩
      · exact .inl (h.inner.lt hopener)
      · exact .inr hopener
    · simpa [hstep] using hrest

/-! ## What opens inside of a pair -/

/-- An opener at index `k`, waiting already or still to come. -/
def Opens (i : Nat) (waiting : List Waiting) (kinds : List Kind) (k : Nat) : Prop :=
  (∃ w ∈ waiting, w.index = k) ∨ i ≤ k ∧ ∃ d, kinds[k - i]? = some (.opens d)

/-- After a step an opener still waits or is still to come, unless the step has closed it. -/
theorem Opens.step {i k : Nat} {waiting : List Waiting} {kind : Kind} {kinds : List Kind}
    (h : Opens i waiting (kind :: kinds) k) :
    (Pairing.step i waiting kind).2 = some (k, i) ∨
      Opens (i + 1) (Pairing.step i waiting kind).1 kinds k := by
  have hlater (hk : i < k) (d : Delimiter) (hd : (kind :: kinds)[k - i]? = some (.opens d)) :
      Opens (i + 1) (Pairing.step i waiting kind).1 kinds k := by
    have hindex : k - i = k - (i + 1) + 1 := by omega
    rw [hindex, List.getElem?_cons_succ] at hd
    exact .inr ⟨hk, d, hd⟩
  rcases step_cases i waiting kind with ⟨d, rfl, hstep⟩ | ⟨w, outer, rfl, rfl, hstep⟩ | ⟨hne, hstep⟩
  · right
    rcases h with ⟨w, hw, rfl⟩ | ⟨hk, e, he⟩
    · exact .inl ⟨w, by simp [hstep, hw], rfl⟩
    · rcases Nat.eq_or_lt_of_le hk with rfl | hk
      · exact .inl ⟨⟨i, d⟩, by simp [hstep], rfl⟩
      · exact hlater hk e he
  · rcases h with ⟨v, hv, rfl⟩ | ⟨hk, e, he⟩
    · rcases List.mem_cons.1 hv with rfl | hv
      · exact .inl (by simp [hstep])
      · exact .inr (.inl ⟨v, by simp [hstep, hv], rfl⟩)
    · rcases Nat.eq_or_lt_of_le hk with rfl | hk
      · simp at he
      · exact .inr (hlater hk e he)
  · right
    rcases h with ⟨w, hw, rfl⟩ | ⟨hk, e, he⟩
    · exact .inl ⟨w, by simp [hstep, hw], rfl⟩
    · rcases Nat.eq_or_lt_of_le hk with rfl | hk
      · simp at he
        exact absurd he (hne e)
      · exact hlater hk e he

/-- **What opens inside of a pair closes inside of it.** -/
theorem exists_closer_of_inside {i : Nat} {waiting : List Waiting} (h : Ordered i waiting)
    {kinds : List Kind} {o c k : Nat} (hpair : (o, c) ∈ pairsFrom i waiting kinds)
    (hk : Opens i waiting kinds k) (hok : o < k) (hkc : k < c) :
    ∃ e, e < c ∧ (k, e) ∈ pairsFrom i waiting kinds := by
  induction kinds generalizing i waiting with
  | nil => cases hpair
  | cons kind kinds ih =>
    rw [pairsFrom_cons] at hpair ⊢
    rcases List.mem_append.1 hpair with hnow | hlater
    · -- The pair is completed now: what waits inside of it would have to be inner to it.
      rcases step_cases i waiting kind with ⟨d, -, hstep⟩ | ⟨w, outer, rfl, -, hstep⟩ | ⟨-, hstep⟩
      · simp [hstep] at hnow
      · simp only [hstep, Option.toList_some, List.mem_singleton, Prod.mk.injEq] at hnow
        obtain ⟨rfl, rfl⟩ := hnow
        rcases hk with ⟨v, hv, rfl⟩ | ⟨hik, -⟩
        · rcases List.mem_cons.1 hv with rfl | hv
          · exact absurd hok (Nat.lt_irrefl _)
          · exact absurd hok (Nat.not_lt_of_gt (h.inner.lt hv))
        · omega
      · simp [hstep] at hnow
    · have hcloser : i < c := (fits_of_mem_pairsFrom hlater).1
      rcases hk.step with hclosed | hk
      · exact ⟨i, hcloser, by simp [hclosed]⟩
      · obtain ⟨e, hec, he⟩ := ih (h.step kind) hlater hk
        exact ⟨e, hec, List.mem_append_right _ he⟩

end Pairing

end PhpLint

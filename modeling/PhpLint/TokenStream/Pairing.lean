import PhpLint.Token

/-!
# Pairing delimiters

Brackets and the two ends of a doc comment are paired by one pass with a stack of the openers that
wait for their closer.  A closer that does not fit the innermost waiting opener is left alone, and
so is an opener that waits to the end: neither shifts the pairs around it.

The pass answers the list of pairs `(opener, closer)` in the order of their closers; the **partner
table** turns it into a look-up by index.

`lt_of_mem_pairs` says what a pair is: an opener and, after it, a closer of the same sort.
`mem_pairs_of_partners` leads from the table back to the pairs.
-/

namespace PhpLint.Pairing

/-- An opener that waits for its closer: its index and what it opens. -/
structure Waiting where
  index : Nat
  delimiter : Delimiter
  deriving DecidableEq, Repr

/-- The pairs found from index `i` on, with the openers that wait, innermost first. -/
def pairsFrom (i : Nat) (waiting : List Waiting) : List Kind → List (Nat × Nat)
  | [] => []
  | .opens d :: kinds => pairsFrom (i + 1) (⟨i, d⟩ :: waiting) kinds
  | .closes d :: kinds =>
    match waiting with
    | [] => pairsFrom (i + 1) [] kinds
    | w :: outer =>
      if w.delimiter = d then (w.index, i) :: pairsFrom (i + 1) outer kinds
      else pairsFrom (i + 1) waiting kinds
  | _ :: kinds => pairsFrom (i + 1) waiting kinds

/-- The pairs of a list of kinds. -/
def pairs (kinds : List Kind) : List (Nat × Nat) := pairsFrom 0 [] kinds

/-- Both ends of a pair entered as partners of each other. -/
def enter (table : Array (Option Nat)) (pair : Nat × Nat) : Array (Option Nat) :=
  (table.setIfInBounds pair.1 (some pair.2)).setIfInBounds pair.2 (some pair.1)

/-- For every index, the other end of its pair. -/
def partners (tokens : Array Token) : Array (Option Nat) :=
  (pairs (tokens.toList.map Token.kind)).foldl enter (Array.replicate tokens.size none)

/-- A pair `(o, c)` as the pass from index `i` finds it: its closer lies in the rest of the list, and
its opener either waits already or lies in the rest, before the closer. -/
def Fits (i : Nat) (waiting : List Waiting) (kinds : List Kind) (pair : Nat × Nat) : Prop :=
  i ≤ pair.2 ∧ ∃ d, kinds[pair.2 - i]? = some (.closes d) ∧
    (⟨pair.1, d⟩ ∈ waiting ∨
      i ≤ pair.1 ∧ pair.1 < pair.2 ∧ kinds[pair.1 - i]? = some (.opens d))

/-- A pair of the later tokens is one of them all, as long as what waits was waiting before or is the
opener in front. -/
theorem Fits.step {i : Nat} {waiting waiting' : List Waiting} {k : Kind} {kinds : List Kind}
    {pair : Nat × Nat} (h : Fits (i + 1) waiting' kinds pair)
    (hw : ∀ w ∈ waiting', w ∈ waiting ∨ k = .opens w.delimiter ∧ w.index = i) :
    Fits i waiting (k :: kinds) pair := by
  obtain ⟨h1, d, h2, h3⟩ := h
  have e : pair.2 - i = pair.2 - (i + 1) + 1 := by omega
  refine ⟨by omega, d, by simpa [e] using h2, ?_⟩
  rcases h3 with h3 | ⟨h3, h4, h5⟩
  · rcases hw _ h3 with h | ⟨rfl, h⟩
    · exact .inl h
    · refine .inr ⟨by simp at h; omega, by simp at h; omega, ?_⟩
      simp at h
      simp [h]
  · have e' : pair.1 - i = pair.1 - (i + 1) + 1 := by omega
    exact .inr ⟨by omega, h4, by simpa [e'] using h5⟩

/-- A pair that the pass makes has its closer among the kinds to come, and its opener before it there or
among those that wait. -/
theorem fits_of_mem_pairsFrom {i : Nat} {waiting : List Waiting} {kinds : List Kind}
    {pair : Nat × Nat} (h : pair ∈ pairsFrom i waiting kinds) : Fits i waiting kinds pair := by
  fun_induction pairsFrom i waiting kinds with
  | case1 => simp at h
  | case2 i waiting d kinds ih =>
    exact (ih h).step fun w hw => by
      rcases List.mem_cons.1 hw with rfl | hw
      · exact .inr ⟨rfl, rfl⟩
      · exact .inl hw
  | case3 i d kinds ih => exact (ih h).step fun w hw => .inl hw
  | case4 i kinds w outer ih =>
    rcases List.mem_cons.1 h with rfl | h
    · exact ⟨Nat.le_refl _, w.delimiter, by simp, .inl (by simp)⟩
    · exact (ih h).step fun w' hw => .inl (by simp [hw])
  | case5 i d kinds w outer hd ih => exact (ih h).step fun w' hw => .inl hw
  | case6 i waiting k kinds h1 h2 ih => exact (ih h).step fun w hw => .inl hw

/-- The opener of a pair stands before its closer, and both are of one delimiter. -/
theorem lt_of_mem_pairs {kinds : List Kind} {o c : Nat} (h : (o, c) ∈ pairs kinds) :
    o < c ∧ ∃ d, kinds[o]? = some (.opens d) ∧ kinds[c]? = some (.closes d) := by
  obtain ⟨-, d, h2, h3⟩ := fits_of_mem_pairsFrom h
  rcases h3 with h3 | ⟨-, h4, h5⟩
  · simp at h3
  · exact ⟨h4, d, by simpa using h5, by simpa using h2⟩

/-- Entering a pair into the table changes its two ends alone. -/
theorem mem_of_enter {table : Array (Option Nat)} {pair : Nat × Nat} {i j : Nat}
    (h : (enter table pair)[i]? = some (some j)) :
    table[i]? = some (some j) ∨ pair = (i, j) ∨ pair = (j, i) := by
  simp only [enter, Array.getElem?_setIfInBounds] at h
  split at h
  · split at h
    · next h1 _ => simp_all [Prod.ext_iff]
    · simp at h
  · split at h
    · split at h
      · simp_all [Prod.ext_iff]
      · simp at h
    · exact .inl h

/-- What a table holds after some pairs are entered, it held before or is one of them. -/
theorem mem_pairs_of_foldl {ps : List (Nat × Nat)} {table : Array (Option Nat)} {i j : Nat}
    (h : (ps.foldl enter table)[i]? = some (some j)) :
    table[i]? = some (some j) ∨ (i, j) ∈ ps ∨ (j, i) ∈ ps := by
  induction ps generalizing table with
  | nil => exact .inl h
  | cons p ps ih =>
    rcases ih h with h | h | h
    · rcases mem_of_enter h with h | h | h
      · exact .inl h
      · exact .inr (.inl (by simp [h]))
      · exact .inr (.inr (by simp [h]))
    · exact .inr (.inl (by simp [h]))
    · exact .inr (.inr (by simp [h]))

/-- The table of partners holds the pairs of the delimiters and nothing else. -/
theorem mem_pairs_of_partners {tokens : Array Token} {i j : Nat}
    (h : (partners tokens)[i]? = some (some j)) :
    (i, j) ∈ pairs (tokens.toList.map Token.kind) ∨
      (j, i) ∈ pairs (tokens.toList.map Token.kind) := by
  rcases mem_pairs_of_foldl h with h | h
  · simp [Array.getElem?_replicate] at h
  · exact h

end PhpLint.Pairing

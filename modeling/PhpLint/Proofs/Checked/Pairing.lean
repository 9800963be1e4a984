import PhpLint.Proofs.Checked.Stream

/-!
# The partner table with checked accesses

The pass that pairs delimiters keeps the indices of the openers that wait.  At a closer it takes the
token at the innermost of them, and writes both ends of a pair into the table.  An index that waits is
one that the pass came past, and the table is as long as the stream: `partners_eq`.
-/

namespace PhpLint.Checked

open Pairing (Waiting pairsFrom enter)

/-- The kind of the token at an index, which is taken. -/
def kindAt (tokens : Array Token) (i : Nat) : Checked Kind :=
  match tokens[i]? with
  | some t => .ok t.kind
  | none => .error (.index (.index i))

/-- The table with a partner written at an index. -/
def write (table : Array (Option Nat)) (i partner : Nat) : Checked (Array (Option Nat)) :=
  if i < table.size then .ok (table.setIfInBounds i (some partner)) else .error (.index (.index i))

/-- The table after the rest of the tokens, given the openers that wait, innermost first. -/
def pairFrom (tokens : Array Token) (i : Nat) (table : Array (Option Nat)) (waiting : List Nat) :
    List Kind → Checked (Array (Option Nat))
  | [] => return table
  | .opens _ :: kinds => pairFrom tokens (i + 1) table (i :: waiting) kinds
  | .closes d :: kinds =>
    match waiting with
    | [] => pairFrom tokens (i + 1) table [] kinds
    | top :: outer => do
      if (← kindAt tokens top) = .opens d then
        let table ← write table top i
        let table ← write table i top
        pairFrom tokens (i + 1) table outer kinds
      else pairFrom tokens (i + 1) table waiting kinds
  | _ :: kinds => pairFrom tokens (i + 1) table waiting kinds

/-- For every index, the other end of its pair. -/
def partners (tokens : Array Token) : Checked (Array (Option Nat)) :=
  pairFrom tokens 0 (Array.replicate tokens.size none) [] (tokens.toList.map Token.kind)

/-- An opener that waits is a token that the pass came past, and of the kind that it waits as. -/
def Waits (tokens : Array Token) (i : Nat) (w : Waiting) : Prop :=
  w.index < i ∧ (tokens[w.index]?).map Token.kind = some (.opens w.delimiter)

variable {tokens : Array Token} {i : Nat} {k : Kind} {kinds : List Kind}

/-- What waits at one token waits at the next. -/
theorem Waits.succ {w : Waiting} (h : Waits tokens i w) : Waits tokens (i + 1) w :=
  ⟨Nat.lt_succ_of_lt h.1, h.2⟩

/-- The first of the kinds that are left is that of the token at the index, which is in the stream. -/
theorem kind_of_drop (h : (tokens.toList.map Token.kind).drop i = k :: kinds) :
    (tokens[i]?).map Token.kind = some k ∧ i < tokens.size ∧
      (tokens.toList.map Token.kind).drop (i + 1) = kinds := by
  have hkind : (tokens.toList.map Token.kind)[i]? = some k := by
    rw [← List.head?_drop, h]
    rfl
  refine ⟨by simpa using hkind, ?_, ?_⟩
  · simpa using (List.getElem?_eq_some_iff.1 hkind).1
  · rw [← List.tail_drop, h]
    rfl

/-- Taking the kind of a token that is there succeeds. -/
theorem kindAt_eq (h : (tokens[i]?).map Token.kind = some k) : kindAt tokens i = .ok k := by
  obtain ⟨t, htoken, rfl⟩ := Option.map_eq_some_iff.1 h
  rw [kindAt, htoken]

/-- Writing into the table succeeds at every index of it. -/
theorem write_eq {table : Array (Option Nat)} (h : i < table.size) (partner : Nat) :
    write table i partner = .ok (table.setIfInBounds i (some partner)) := if_pos h

/-- The pass enters its pairs one by one, all of them at indices that it has come past. -/
theorem pairFrom_eq {table : Array (Option Nat)} {waiting : List Waiting}
    (hkinds : (tokens.toList.map Token.kind).drop i = kinds) (htable : table.size = tokens.size)
    (hwaiting : ∀ w ∈ waiting, Waits tokens i w) :
    pairFrom tokens i table (waiting.map (·.index)) kinds =
      .ok ((pairsFrom i waiting kinds).foldl enter table) := by
  fun_induction pairsFrom i waiting kinds generalizing table with
  | case1 => rfl
  | case2 i waiting d kinds ih =>
    obtain ⟨hkind, -, hrest⟩ := kind_of_drop hkinds
    refine ih hrest htable fun w hw => ?_
    rcases List.mem_cons.1 hw with rfl | hw
    · exact ⟨Nat.lt_succ_self i, hkind⟩
    · exact (hwaiting w hw).succ
  | case3 i d kinds ih =>
    obtain ⟨-, -, hrest⟩ := kind_of_drop hkinds
    exact ih hrest htable fun w hw => (hwaiting w hw).succ
  | case4 i kinds w outer ih =>
    -- The innermost opener fits, and both ends of the pair are written.
    obtain ⟨-, hi, hrest⟩ := kind_of_drop hkinds
    obtain ⟨hlt, hopens⟩ := hwaiting w List.mem_cons_self
    have hopener : write table w.index i = .ok (table.setIfInBounds w.index (some i)) :=
      write_eq (by omega) i
    have hcloser : write (table.setIfInBounds w.index (some i)) i w.index =
        .ok (enter table (w.index, i)) := write_eq (by simp; omega) w.index
    rw [List.map_cons, pairFrom, kindAt_eq hopens, ok_bind, if_pos rfl, hopener, ok_bind, hcloser,
      ok_bind, List.foldl_cons]
    exact ih hrest (by simpa using htable) fun w hw => (hwaiting w (List.mem_cons_of_mem _ hw)).succ
  | case5 i d kinds w outer hd ih =>
    obtain ⟨-, -, hrest⟩ := kind_of_drop hkinds
    obtain ⟨-, hopens⟩ := hwaiting w List.mem_cons_self
    have hne : Kind.opens w.delimiter ≠ .opens d := fun heq => hd (Kind.opens.inj heq)
    rw [List.map_cons, pairFrom, kindAt_eq hopens, ok_bind, if_neg hne]
    exact ih hrest htable fun w hw => (hwaiting w hw).succ
  | case6 i waiting k kinds hopens hcloses ih =>
    obtain ⟨-, -, hrest⟩ := kind_of_drop hkinds
    rw [pairFrom]
    · exact ih hrest htable fun w hw => (hwaiting w hw).succ
    · exact hopens
    · exact hcloses

/-- **The partner table is built without an access out of range.** -/
theorem partners_eq (tokens : Array Token) : partners tokens = .ok (Pairing.partners tokens) := by
  have hnone : ∀ w ∈ ([] : List Waiting), Waits tokens 0 w := by simp
  exact pairFrom_eq rfl (by simp) hnone

/-- The other end of the pair of the delimiter at an index, by the table that is built first. -/
def partner? (s : TokenStream) (i : Nat) : Checked (Option Nat) := do
  return (← partners s.tokens)[i]?.join

/-- A partner is asked for at every index, also at one outside of the stream. -/
theorem partner?_eq (s : TokenStream) (i : Nat) : partner? s i = .ok (s.partner? i) := by
  rw [partner?, partners_eq, ← s.partners_eq]
  rfl

end PhpLint.Checked

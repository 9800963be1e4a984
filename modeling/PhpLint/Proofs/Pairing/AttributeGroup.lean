import PhpLint.Proofs.Pairing.Segments

/-!
# Attribute groups and the pairs around them

The `#[` of an attribute is a sign and opens nothing, but its `]` goes through the stack like any other
closer.  So a group does to the pairs around it what its `]` alone would do: it is left alone unless the
innermost bracket that is open around it is square, and such a bracket it closes (`attributeGroup_paired`).

At the top level, in parameter lists and in bodies a group is invisible.  In a short array it takes the
bracket of the array, and the `]` of the array is the one left alone (`attributeGroup_in_array`).
-/

namespace PhpLint

open TokenStream.Mirrors (movePair)

/-- The tokens of an attribute group: its sign, what stands in it, and its closer. -/
structure AttributeGroup where
  sign : Token
  inner : List Token
  closer : Token
  kind_sign : sign.kind = .operator
  content_sign : sign.content = "#[".toList
  balanced : (TokenStream.ofList inner).Balanced
  kind_closer : closer.kind = .closes .square

namespace AttributeGroup

/-- All tokens before the closer. -/
def opening (a : AttributeGroup) : List Token := a.sign :: a.inner

/-- All tokens in order. -/
def tokens (a : AttributeGroup) : List Token := a.opening ++ [a.closer]

/-- A group has its closer besides the tokens before it. -/
theorem length_tokens (a : AttributeGroup) : a.tokens.length = a.opening.length + 1 :=
  List.length_append

/-- The sign opens nothing, so all before the closer is closed. -/
theorem isClosed_opening (a : AttributeGroup) : IsClosed (a.opening.map Token.kind) := by
  rw [opening, List.map_cons, a.kind_sign, IsClosed, closesAll_cons_of_plain rfl]
  exact a.balanced.isClosed

end AttributeGroup

namespace TokenStream

variable {s : TokenStream} {o : Nat} {d : Delimiter}

/-! ## The innermost open bracket -/

/-- An opener that nothing closes, and every opener behind it is closed. -/
structure InnermostOpen (s : TokenStream) (o : Nat) (d : Delimiter) : Prop where
  opens : s.isAt o (.opens d) = true
  unclosed : s.partner? o = none
  inner : ∀ i e, o < i → s.isAt i (.opens e) = true → s.partner? i ≠ none

/-- What waits at the end of a stream is an opener without a partner. -/
theorem mem_waitingAfter_kinds_iff :
    ⟨o, d⟩ ∈ Pairing.waitingAfter 0 [] s.kinds ↔
      s.isAt o (.opens d) = true ∧ s.partner? o = none := by
  rw [Pairing.mem_waitingAfter_nil_iff, getElem?_kinds, isAt_iff]
  refine and_congr_right fun hopens => ?_
  rw [Option.eq_none_iff_forall_ne_some]
  refine forall_congr' fun e => ?_
  rw [Ne, partner?_eq_some_iff, not_or]
  refine (and_iff_left fun hpair => ?_).symm
  obtain ⟨-, e, -, hcloses⟩ := kind?_of_mem_pairs hpair
  cases hopens.symm.trans hcloses

/-- The first of the openers that wait at the end is the innermost open bracket. -/
theorem head?_waitingAfter_iff :
    (Pairing.waitingAfter 0 [] s.kinds).head? = some ⟨o, d⟩ ↔ s.InnermostOpen o d := by
  have hordered := Pairing.ordered_nil.waitingAfter s.kinds
  rw [Nat.zero_add] at hordered
  constructor
  · intro hhead
    obtain ⟨outer, hwaiting⟩ := List.head?_eq_some_iff.1 hhead
    have hmem : ⟨o, d⟩ ∈ Pairing.waitingAfter 0 [] s.kinds := by
      rw [hwaiting]
      exact List.mem_cons_self
    obtain ⟨hopens, hnone⟩ := mem_waitingAfter_kinds_iff.1 hmem
    refine ⟨hopens, hnone, fun i e hi hopens' hnone' => ?_⟩
    -- An opener behind it that waits as well would come first.
    have hlater := mem_waitingAfter_kinds_iff.2 ⟨hopens', hnone'⟩
    rw [hwaiting] at hlater hordered
    rcases List.mem_cons.1 hlater with heq | hlater
    · cases heq
      exact Nat.lt_irrefl _ hi
    · exact Nat.lt_asymm hi (hordered.inner.lt hlater)
  · intro hinnermost
    have hmem := mem_waitingAfter_kinds_iff.2 ⟨hinnermost.opens, hinnermost.unclosed⟩
    cases hwaiting : Pairing.waitingAfter 0 [] s.kinds with
    | nil =>
      rw [hwaiting] at hmem
      cases hmem
    | cons w outer =>
      have hfirst : w ∈ Pairing.waitingAfter 0 [] s.kinds := by
        rw [hwaiting]
        exact List.mem_cons_self
      obtain ⟨hopens, hnone⟩ := mem_waitingAfter_kinds_iff.1 hfirst
      rw [hwaiting] at hmem hordered
      rcases List.mem_cons.1 hmem with heq | hmem
      · rw [List.head?_cons, heq]
      · exact absurd hnone (hinnermost.inner _ _ (hordered.inner.lt hmem) hopens)

/-! ## What a group does -/

variable {xs zs : List Token} {a : AttributeGroup}

/-- Behind a group the openers wait that its `]` alone would leave, and the pairs found in it are its own
and the one that the `]` completes. -/
theorem pass_attributeGroup (a : AttributeGroup) (start : Nat) (waiting : List Pairing.Waiting) :
    Pairing.waitingAfter start waiting (a.tokens.map Token.kind) =
        (Pairing.step (start + a.opening.length) waiting (.closes .square)).1 ∧
      Pairing.pairsFrom start waiting (a.tokens.map Token.kind) =
        (Pairing.pairs (a.opening.map Token.kind)).map (movePair (start + ·)) ++
          (Pairing.step (start + a.opening.length) waiting (.closes .square)).2.toList := by
  rw [AttributeGroup.tokens, List.map_append, List.map_singleton, a.kind_closer]
  constructor
  · rw [Pairing.waitingAfter_append, Pairing.waitingAfter_of_isClosed a.isClosed_opening,
      List.length_map]
    rfl
  · rw [Pairing.pairsFrom_append, Pairing.pairsFrom_of_isClosed a.isClosed_opening,
      Pairing.waitingAfter_of_isClosed a.isClosed_opening, List.length_map, Pairing.pairsFrom_cons,
      Pairing.pairsFrom, List.append_nil]

/-- What a group between two lists of tokens does to the pairs. -/
structure GroupPaired (a : AttributeGroup) (xs zs : List Token) : Prop where
  /-- The delimiters in the group pair as they do alone. -/
  inside : ∀ i, i < a.inner.length →
    (ofList (xs ++ a.tokens ++ zs)).partner? (xs.length + 1 + i) =
      ((ofList a.inner).partner? i).map (xs.length + 1 + ·)
  /-- All else pairs as it does with the `]` of the group alone. -/
  outside : ∀ i,
    (ofList (xs ++ a.tokens ++ zs)).partner? (shifted xs.length a.opening.length i) =
      ((ofList (xs ++ a.closer :: zs)).partner? i).map (shifted xs.length a.opening.length)
  /-- Where no square bracket is the innermost open one, the `]` has no partner, and all around the group
  pairs as it does without it. -/
  ignored : (∀ o, ¬(ofList xs).InnermostOpen o .square) →
    (ofList (xs ++ a.tokens ++ zs)).partner? (xs.length + a.opening.length) = none ∧
      ∀ i, (ofList (xs ++ a.tokens ++ zs)).partner? (shifted xs.length a.tokens.length i) =
        ((ofList (xs ++ zs)).partner? i).map (shifted xs.length a.tokens.length)
  /-- Else the `]` closes that bracket. -/
  taken : ∀ o, (ofList xs).InnermostOpen o .square →
    (ofList (xs ++ a.tokens ++ zs)).partner? (xs.length + a.opening.length) = some o

/-- **What an attribute group does to the pairs around it.**  Nothing, unless the innermost bracket that
is open in front of it is square: that bracket it closes. -/
theorem attributeGroup_paired (a : AttributeGroup) (xs zs : List Token) : GroupPaired a xs zs := by
  obtain ⟨hafter, hfound⟩ := pass_attributeGroup a xs.length
    (Pairing.waitingAfter 0 [] (xs.map Token.kind))
  have hlength := a.length_tokens
  have hhead (o : Nat) : (Pairing.waitingAfter 0 [] (xs.map Token.kind)).head? = some ⟨o, .square⟩ ↔
      (ofList xs).InnermostOpen o .square :=
    head?_waitingAfter_iff (s := ofList xs)
  constructor
  case inside =>
    intro i hi
    have hmiddle := a.balanced.partner?_middle (xs ++ [a.sign]) (a.closer :: zs) hi
    rw [List.length_append, List.length_singleton] at hmiddle
    rw [← hmiddle, AttributeGroup.tokens, AttributeGroup.opening]
    simp only [List.append_assoc, List.cons_append, List.nil_append]
  case outside =>
    intro i
    have hkeeps := Pairing.waitingAfter_of_isClosed a.isClosed_opening xs.length
      (Pairing.waitingAfter 0 [] (xs.map Token.kind))
    have hshifted := partner?_shifted hkeeps (fun pair hpair => by
      rw [Pairing.pairsFrom_of_isClosed a.isClosed_opening] at hpair
      exact own_pairs_inside a.opening xs.length hpair) (a.closer :: zs) i
    rw [← hshifted, AttributeGroup.tokens]
    simp only [List.append_assoc, List.cons_append, List.nil_append]
  case ignored =>
    intro hnone
    -- No square bracket waits first, so the `]` is left alone.
    have hstep (i : Nat) : Pairing.step i (Pairing.waitingAfter 0 [] (xs.map Token.kind))
        (.closes .square) = (Pairing.waitingAfter 0 [] (xs.map Token.kind), none) := by
      cases hwaiting : Pairing.waitingAfter 0 [] (xs.map Token.kind) with
      | nil => rfl
      | cons w outer =>
        have hne : w.delimiter ≠ .square := by
          intro hsquare
          refine hnone w.index ((hhead w.index).1 ?_)
          rw [hwaiting, List.head?_cons, ← hsquare]
        rw [Pairing.step, if_neg hne]
    rw [hstep] at hafter hfound
    rw [Option.toList_none, List.append_nil] at hfound
    have houtside := partner?_shifted hafter (fun pair hpair => by
      rw [hfound] at hpair
      have := own_pairs_inside a.opening xs.length hpair
      omega) zs
    refine ⟨Option.eq_none_iff_forall_ne_some.2 fun j hpartner => ?_, houtside⟩
    -- A pair is one of the group's own, whose ends lie before the `]`, or one around the group.
    have hend : ∀ pair ∈ Pairing.pairs (ofList (xs ++ a.tokens ++ zs)).kinds,
        pair.1 ≠ xs.length + a.opening.length ∧ pair.2 ≠ xs.length + a.opening.length := by
      intro pair hpair
      rw [kinds_ofList, List.map_append, List.map_append, Pairing.mem_pairs_insert_iff
        (by rwa [List.length_map]), List.length_map, List.length_map, hfound] at hpair
      rcases hpair with hpair | hpair
      · have := own_pairs_inside a.opening xs.length hpair
        omega
      · obtain ⟨⟨o, c⟩, -, rfl⟩ := List.mem_map.1 hpair
        have hopener := shifted_outside xs.length a.tokens.length o
        have hcloser := shifted_outside xs.length a.tokens.length c
        simp only [movePair]
        omega
    rcases partner?_eq_some_iff.1 hpartner with hpair | hpair
    · exact (hend _ hpair).1 rfl
    · exact (hend _ hpair).2 rfl
  case taken =>
    intro o ho
    obtain ⟨outer, hwaiting⟩ := List.head?_eq_some_iff.1 ((hhead o).2 ho)
    rw [hwaiting, Pairing.step, if_pos rfl, Option.toList_some] at hfound
    rw [partner?_eq_some_iff, kinds_ofList, List.map_append, List.map_append, Pairing.pairs,
      List.append_assoc, Pairing.pairsFrom_append, Pairing.pairsFrom_append, Nat.zero_add,
      List.length_map, hwaiting, hfound]
    right
    simp

/-- A group as it stands in an array. -/
def groupInArray : AttributeGroup where
  sign := ⟨.operator, "#[".toList, 2, 7, 12⟩
  inner := [⟨.identifier, "A".toList, 2, 9, 14⟩]
  closer := ⟨.closes .square, "]".toList, 2, 10, 15⟩
  kind_sign := rfl
  content_sign := rfl
  balanced := by decide +kernel
  kind_closer := rfl

/-- In a parameter list the innermost open bracket is round, so the group leaves all brackets alone. -/
theorem attributeGroup_paired_parameter :
    (ofList (tokensOf "[function f(")).InnermostOpen 4 .round ∧
      GroupPaired groupInArray (tokensOf "[function f(") (tokensOf "$a) \x7b\x7d]") :=
  ⟨head?_waitingAfter_iff.1 (by decide +kernel), attributeGroup_paired _ _ _⟩

/-- The `]` of a group in a short array has a partner, the `[` of the array, and that bracket's own `]`
has none. -/
theorem attributeGroup_in_array :
    ∃ s, ofSource "<?php\n$x = [#[A] fn() => 1];\n".toList = .ok s ∧
      ∃ xs zs, s.tokens.toList = xs ++ groupInArray.tokens ++ zs ∧
        (ofList (xs ++ zs)).partner? 5 = some 14 ∧
        (s.partner? (shifted xs.length groupInArray.tokens.length 5) = some 8 ∧
          s.partner? 8 = some 5 ∧
          s.partner? (shifted xs.length groupInArray.tokens.length 14) = none) := by
  have hcomputed : (ofSource "<?php\n$x = [#[A] fn() => 1];\n".toList).map
      (fun s => decide (s.tokens.toList =
          s.tokens.toList.take 6 ++ groupInArray.tokens ++ s.tokens.toList.drop 9 ∧
        (ofList (s.tokens.toList.take 6 ++ s.tokens.toList.drop 9)).partner? 5 = some 14 ∧
        (s.partner? (shifted (s.tokens.toList.take 6).length groupInArray.tokens.length 5) = some 8 ∧
          s.partner? 8 = some 5 ∧
          s.partner? (shifted (s.tokens.toList.take 6).length groupInArray.tokens.length 14) =
            none))) = .ok true := by
    decide +kernel
  obtain ⟨s, hs, hall⟩ := exists_of_map_ofSource hcomputed
  exact ⟨s, hs, _, _, of_decide_eq_true hall⟩

end TokenStream

end PhpLint

import Mathlib.Data.List.Forall2
import Mathlib.Data.Nat.Count
import PhpLint.Proofs.LineEnds.Stream
import PhpLint.Proofs.Lexing.DocGroup

/-!
# Streams of one code

The **code** of a stream is what is left of it without its layout: the significant tokens in a row,
each by its kind and its content.  The **ordinal** of an index is the number of significant tokens
before it, so that in streams of one code the significant tokens with one ordinal **match**.

Whatever is asked of a significant token is answered alike at tokens that match, and its neighbours
match again.  For the pairs of delimiters this takes an argument, since the ends of doc comments go
through the same stack as the brackets: in the stream of a source every doc comment is closed before
the next bracket (`DocClosed`), so that the pass, seen at the significant tokens alone, is the pass
over the code (`map_ordinal_pairs`).
-/

namespace PhpLint

/-! ## Answers that are related -/

section Rel

variable {α β γ δ : Type} {r : α → β → Prop} {r' : γ → δ → Prop} {o : Option α} {o' : Option β}

/-- Answers that are related lead to related answers. -/
theorem Option.rel_bind {f : α → Option γ} {f' : β → Option δ} (h : Option.Rel r o o')
    (hf : ∀ a b, r a b → Option.Rel r' (f a) (f' b)) :
    Option.Rel r' (o.bind f) (o'.bind f') := by
  cases h with
  | none => exact .none
  | some hab => exact hf _ _ hab

/-- Of related answers the same are kept by questions that are answered alike. -/
theorem Option.rel_filter {p : α → Bool} {q : β → Bool} (h : Option.Rel r o o')
    (hp : ∀ a b, r a b → q b = p a) : Option.Rel r (o.filter p) (o'.filter q) := by
  cases h with
  | none => exact .none
  | @some a b hab =>
    rw [Option.filter_some, Option.filter_some, hp a b hab]
    split
    · exact .some hab
    · exact .none

/-- Of related answers an equal question holds in the one case as in the other. -/
theorem Option.any_of_rel {p : α → Bool} {q : β → Bool} (h : Option.Rel r o o')
    (hp : ∀ a b, r a b → q b = p a) : o'.any q = o.any p := by
  cases h with
  | none => rfl
  | some hab => exact hp _ _ hab

/-- A question that must hold if there is an answer is met in the one case as in the other. -/
theorem Option.all_of_rel {p : α → Bool} {q : β → Bool} (h : Option.Rel r o o')
    (hp : ∀ a b, r a b → q b = p a) : o'.all q = o.all p := by
  cases h with
  | none => rfl
  | some hab => exact hp _ _ hab

end Rel

/-! ## Doc comments among kinds -/

namespace Pairing

open Comment (isInnerKind)
open TokenStream.Mirrors (movePair moveWaiting step_map)

/-- The kinds of a list in which doc comments are closed one after another, with no bracket inside. -/
inductive DocClosed : List Kind → Prop
  | nil : DocClosed []
  | cons {k : Kind} {kinds : List Kind} (hkind : k.isDocComment = false)
      (hrest : DocClosed kinds) : DocClosed (k :: kinds)
  | doc {inner kinds : List Kind} (hinner : ∀ k ∈ inner, isInnerKind k = true)
      (hrest : DocClosed kinds) :
      DocClosed (.opens .docComment :: (inner ++ .closes .docComment :: kinds))

theorem isTrivia_of_isInnerKind {k : Kind} (h : isInnerKind k = true) : k.isTrivia = true := by
  cases k <;> first | rfl | cases h

/-- What stands inside of a doc comment is no delimiter. -/
theorem not_isDelimiter_of_isInnerKind {k : Kind} (h : isInnerKind k = true) :
    k.isDelimiter = false := by
  cases k <;> first | rfl | cases h

/-- What is neither significant nor part of a doc comment is no delimiter. -/
theorem not_isDelimiter_of_trivia {k : Kind} (hdoc : k.isDocComment = false)
    (hcode : k.isSignificant = false) : k.isDelimiter = false := by
  cases k
  case opens d => cases d <;> simp [Kind.isDocComment, Kind.isSignificant, Kind.isTrivia] at hdoc hcode
  case closes d => cases d <;> simp [Kind.isDocComment, Kind.isSignificant, Kind.isTrivia] at hdoc hcode
  all_goals rfl

/-- The pass over a doc comment: the opener goes on the stack and the closer takes it off again. -/
theorem pairsFrom_doc (i : Nat) (waiting : List Waiting) {inner : List Kind}
    (hinner : ∀ k ∈ inner, isInnerKind k = true) (kinds : List Kind) :
    pairsFrom i waiting (.opens .docComment :: (inner ++ .closes .docComment :: kinds)) =
      (i, i + 1 + inner.length) :: pairsFrom (i + 1 + inner.length + 1) waiting kinds := by
  rw [pairsFrom_cons, step, Option.toList_none, List.nil_append,
    pairsFrom_append_of_plain _ _ fun k hk => not_isDelimiter_of_isInnerKind (hinner k hk),
    pairsFrom_cons]
  rfl

/-- Nothing of a doc comment is significant. -/
theorem filter_isSignificant_doc {inner : List Kind} (hinner : ∀ k ∈ inner, isInnerKind k = true)
    (kinds : List Kind) :
    (Kind.opens .docComment :: (inner ++ .closes .docComment :: kinds)).filter Kind.isSignificant =
      kinds.filter Kind.isSignificant := by
  have hnone : inner.filter Kind.isSignificant = [] := by
    refine List.filter_eq_nil_iff.2 fun k hk => ?_
    rw [Kind.isSignificant, isTrivia_of_isInnerKind (hinner k hk)]
    exact Bool.false_ne_true
  rw [List.filter_cons_of_neg (by decide), List.filter_append, hnone,
    List.filter_cons_of_neg (by decide), List.nil_append]

/-- In what is read off a text doc comments are closed. -/
theorem docClosed_of_reads {t : Text} {ls : List Lexeme} (h : Scan.Reads t ls) :
    DocClosed (ls.map Lexeme.kind) := by
  induction h with
  | nil => exact .nil
  | one hkind hrest ih => exact .cons hkind ih
  | @doc body rest ls hcloses hrest ih =>
    have hinner : ∀ k ∈ (Comment.docBody false body).map Lexeme.kind, isInnerKind k = true := by
      intro k hk
      obtain ⟨l, hl, rfl⟩ := List.mem_map.1 hk
      exact Comment.isInnerKind_of_mem_docBody hl
    simpa [Comment.doc] using DocClosed.doc hinner ih

end Pairing

/-- The length of what a filter leaves of a front is the number of indices that fit. -/
theorem length_filter_take {α : Type} (p : α → Bool) (l : List α) (n : Nat) :
    ((l.take n).filter p).length = Nat.count (fun i => l[i]?.any p = true) n := by
  induction n with
  | zero => rw [List.take_zero, Nat.count_zero, List.filter_nil, List.length_nil]
  | succ n ih =>
    rw [List.take_add_one, List.filter_append, List.length_append, ih, Nat.count_succ]
    cases l[n]? with
    | none => rfl
    | some a => cases hp : p a <;> simp [hp]

/-- What fits keeps its place among what fits. -/
theorem getElem?_filter_of_getElem? {α : Type} {p : α → Bool} {l : List α} {i : Nat} {a : α}
    (hi : l[i]? = some a) (ha : p a = true) : (l.filter p)[((l.take i).filter p).length]? = some a := by
  obtain ⟨hlt, rfl⟩ := List.getElem?_eq_some_iff.1 hi
  have hsplit : l.filter p = (l.take i).filter p ++ l[i] :: (l.drop (i + 1)).filter p := by
    rw [← List.filter_cons_of_pos ha, ← List.drop_eq_getElem_cons hlt, ← List.filter_append,
      List.take_append_drop]
  rw [hsplit, List.getElem?_append_right (Nat.le_refl _), Nat.sub_self, List.getElem?_cons_zero]

namespace TokenStream

open Pairing (DocClosed pairsFrom Waiting)
open Mirrors (movePair moveWaiting step_map)

variable {s s' : TokenStream} {i i' j j' : Nat}

/-! ## Ordinals -/

/-- The number of significant tokens before an index. -/
def ordinal (s : TokenStream) (i : Nat) : Nat :=
  Nat.count (fun k => s.has k Kind.isSignificant = true) i

/-- The ordinal as the length of what is significant up to the index. -/
theorem ordinal_eq_length (s : TokenStream) (i : Nat) :
    s.ordinal i = ((s.kinds.take i).filter Kind.isSignificant).length := by
  rw [length_filter_take]
  simp only [getElem?_kinds]
  rfl

/-- Behind a significant token the ordinal is greater. -/
theorem ordinal_lt (hi : s.has i Kind.isSignificant = true) (hij : i < j) :
    s.ordinal i < s.ordinal j :=
  Nat.count_strict_mono hi hij

theorem ordinal_succ (hi : s.has i Kind.isSignificant = true) :
    s.ordinal (i + 1) = s.ordinal i + 1 := by
  rw [ordinal, Nat.count_succ, if_pos hi]
  rfl

theorem ordinal_succ_of_not (hi : s.has i Kind.isSignificant = false) :
    s.ordinal (i + 1) = s.ordinal i := by
  rw [ordinal, Nat.count_succ, if_neg (by simp [hi])]
  rfl

/-- Significant tokens with one ordinal are one token. -/
theorem ordinal_injective (hi : s.has i Kind.isSignificant = true)
    (hj : s.has j Kind.isSignificant = true) (h : s.ordinal i = s.ordinal j) : i = j :=
  Nat.count_injective hi hj h

/-- From a significant token on ordinals are in the order of the indices. -/
theorem ordinal_lt_iff (hi : s.has i Kind.isSignificant = true) :
    s.ordinal i < s.ordinal j ↔ i < j := by
  refine ⟨fun h => ?_, ordinal_lt hi⟩
  by_contra hle
  exact absurd (Nat.count_monotone _ (Nat.le_of_not_lt hle)) (Nat.not_le_of_gt h)

/-- Past a stretch of tokens the ordinal has grown by what is significant among them. -/
theorem ordinal_add {xs ys : List Kind} (h : s.kinds.drop i = xs ++ ys) :
    s.ordinal (i + xs.length) = s.ordinal i + (xs.filter Kind.isSignificant).length := by
  rw [ordinal_eq_length, ordinal_eq_length, List.take_add, h, List.take_left, List.filter_append,
    List.length_append]

/-- The ordinals of two indices follow each other when the one is significant and nothing between them
is. -/
theorem ordinal_eq_add_one_iff (hi : s.has i Kind.isSignificant = true) :
    s.ordinal j = s.ordinal i + 1 ↔
      i < j ∧ ∀ k, i < k → k < j → s.has k Kind.isSignificant = false := by
  constructor
  · intro h
    refine ⟨(ordinal_lt_iff hi).1 (by omega), fun k hik hkj => ?_⟩
    by_contra hk
    have hbefore := ordinal_lt hi hik
    have hafter := ordinal_lt (eq_true_of_ne_false hk) hkj
    omega
  · rintro ⟨hij, hbetween⟩
    -- Counting on from the index after `i` meets nothing significant.
    obtain ⟨n, rfl⟩ : ∃ n, j = i + 1 + n := ⟨j - (i + 1), by omega⟩
    have hnone : Nat.count (fun k => s.has (i + 1 + k) Kind.isSignificant = true) n = 0 := by
      refine Nat.count_iff_forall_not.2 fun k hk => ?_
      rw [hbetween (i + 1 + k) (by omega) (by omega)]
      exact Bool.false_ne_true
    rw [ordinal, Nat.count_add, hnone]
    exact ordinal_succ hi

/-- The next significant token is the one with the next ordinal. -/
theorem nextSignificant_eq_some_iff_ordinal (hi : s.has i Kind.isSignificant = true) :
    s.nextSignificant i = some j ↔
      s.has j Kind.isSignificant = true ∧ s.ordinal j = s.ordinal i + 1 := by
  rw [ordinal_eq_add_one_iff hi, nextSignificant, findNext_eq_some_iff]
  constructor
  · rintro ⟨hij, hj, hbetween⟩
    exact ⟨hj, hij, hbetween⟩
  · rintro ⟨hj, hij, hbetween⟩
    exact ⟨hij, hj, hbetween⟩

/-- The previous significant token is the one with the ordinal before. -/
theorem previousSignificant_eq_some_iff_ordinal :
    s.previousSignificant i = some j ↔
      s.has j Kind.isSignificant = true ∧ s.ordinal i = s.ordinal j + 1 := by
  rw [previousSignificant, findBefore_eq_some_iff]
  constructor
  · rintro ⟨hji, hj, hbetween⟩
    exact ⟨hj, (ordinal_eq_add_one_iff hj).2 ⟨hji, hbetween⟩⟩
  · rintro ⟨hj, hordinal⟩
    obtain ⟨hji, hbetween⟩ := (ordinal_eq_add_one_iff hj).1 hordinal
    exact ⟨hji, hj, hbetween⟩

/-! ## The code of a stream -/

/-- The significant tokens of a stream in a row, each by its kind and content. -/
def code (s : TokenStream) : List Lexeme :=
  (s.tokens.toList.filter (·.kind.isSignificant)).map fun t => ⟨t.kind, t.content⟩

/-- The kinds of the code are the significant kinds of the stream. -/
theorem kinds_code (s : TokenStream) :
    s.code.map Lexeme.kind = s.kinds.filter Kind.isSignificant := by
  rw [code, kinds, List.filter_map, List.map_map]
  rfl

/-- A significant token stands in the code at its ordinal. -/
theorem getElem?_code {t : Token} (ht : s.token? i = some t) (hcode : t.kind.isSignificant = true) :
    s.code[s.ordinal i]? = some ⟨t.kind, t.content⟩ := by
  have htoken : s.tokens.toList[i]? = some t := by
    rw [Array.getElem?_toList]
    exact ht
  have hfound := getElem?_filter_of_getElem? (p := fun t => t.kind.isSignificant) htoken hcode
  rw [code, ordinal_eq_length, kinds, ← List.map_take, List.filter_map, List.length_map,
    List.getElem?_map]
  exact congrArg (Option.map _) hfound

/-- Every number below an ordinal is the ordinal of a significant token. -/
theorem exists_ordinal_eq {n : Nat} (hn : n < s.ordinal j) :
    ∃ i, s.has i Kind.isSignificant = true ∧ s.ordinal i = n := by
  induction j with
  | zero =>
    rw [ordinal, Nat.count_zero] at hn
    omega
  | succ j ih =>
    rw [ordinal, Nat.count_succ] at hn
    split at hn
    · next hj =>
      rcases Nat.lt_or_eq_of_le (Nat.le_of_lt_succ hn) with hlt | heq
      · exact ih hlt
      · exact ⟨j, hj, heq.symm⟩
    · exact ih hn

/-- The significant indices of a stream. -/
def codeIndices (s : TokenStream) : List Nat :=
  (List.range s.size).filter (s.has · Kind.isSignificant)

/-- The significant tokens up to an index have the ordinals up to its own, in order. -/
theorem map_ordinal_filter_range (s : TokenStream) (n : Nat) :
    ((List.range n).filter (s.has · Kind.isSignificant)).map s.ordinal =
      List.range (s.ordinal n) := by
  induction n with
  | zero =>
    rw [ordinal, Nat.count_zero]
    rfl
  | succ n ih =>
    rw [List.range_succ, List.filter_append, List.map_append, ih]
    cases hn : s.has n Kind.isSignificant with
    | true =>
      rw [ordinal_succ hn, List.range_succ, List.filter_cons, if_pos hn]
      rfl
    | false =>
      rw [ordinal_succ_of_not hn, List.filter_cons, if_neg (by simp [hn])]
      exact List.append_nil _

/-- As many tokens are significant as the code is long. -/
theorem ordinal_size (s : TokenStream) : s.ordinal s.size = s.code.length := by
  have hkinds : s.code.length = (s.kinds.filter Kind.isSignificant).length := by
    rw [← kinds_code, List.length_map]
  rw [hkinds, ordinal_eq_length, ← length_kinds, List.take_length]

/-! ## Tokens that match -/

/-- Significant tokens of two streams that have as many significant tokens before them. -/
structure Matches (s s' : TokenStream) (i i' : Nat) : Prop where
  left : s.has i Kind.isSignificant = true
  right : s'.has i' Kind.isSignificant = true
  ordinal : s'.ordinal i' = s.ordinal i

namespace Matches

/-- Tokens that match stand in the same order. -/
theorem lt_iff (hi : Matches s s' i i') (hj : Matches s s' j j') : i' < j' ↔ i < j := by
  rw [← ordinal_lt_iff hi.right, hi.ordinal, hj.ordinal, ordinal_lt_iff hi.left]

end Matches

/-- A token that is asked for stands in the stream. -/
theorem exists_token?_of_has {p : Kind → Bool} (hi : s.has i p = true) :
    ∃ t, s.token? i = some t ∧ p t.kind = true := by
  obtain ⟨k, hk, hp⟩ := (Option.any_eq_true _ _).1 hi
  obtain ⟨t, ht, rfl⟩ := Option.map_eq_some_iff.1 hk
  exact ⟨t, ht, hp⟩

section SameCode

variable (hcode : s'.code = s.code)
include hcode

/-- Tokens that match are there, and are alike in kind and content. -/
theorem Matches.exists_tokens (h : Matches s s' i i') :
    ∃ t t', s.token? i = some t ∧ s'.token? i' = some t' ∧ t'.kind = t.kind ∧
      t'.content = t.content := by
  obtain ⟨t, ht, hkind⟩ := exists_token?_of_has h.left
  obtain ⟨t', ht', hkind'⟩ := exists_token?_of_has h.right
  have hlexeme := getElem?_code ht' hkind'
  rw [hcode, h.ordinal, getElem?_code ht hkind] at hlexeme
  obtain ⟨hk, hc⟩ := Lexeme.mk.inj (Option.some.inj hlexeme)
  exact ⟨t, t', ht, ht', hk.symm, hc.symm⟩

theorem Matches.kind? (h : Matches s s' i i') : s'.kind? i' = s.kind? i := by
  obtain ⟨t, t', ht, ht', hkind, -⟩ := h.exists_tokens hcode
  rw [kind?_of_token? ht, kind?_of_token? ht', hkind]

theorem Matches.content (h : Matches s s' i i') : s'.content i' = s.content i := by
  obtain ⟨t, t', ht, ht', -, hcontent⟩ := h.exists_tokens hcode
  rw [content_of_token? ht, content_of_token? ht', hcontent]

theorem Matches.has (h : Matches s s' i i') (p : Kind → Bool) : s'.has i' p = s.has i p := by
  rw [TokenStream.has, TokenStream.has, h.kind? hcode]

theorem Matches.isAt (h : Matches s s' i i') (k : Kind) : s'.isAt i' k = s.isAt i k := by
  rw [TokenStream.isAt, TokenStream.isAt, h.kind? hcode]

/-- Every significant token matches one of a stream with the same code. -/
theorem exists_matches (hi : s.has i Kind.isSignificant = true) : ∃ i', Matches s s' i i' := by
  have hlt : s.ordinal i < s'.ordinal s'.size := by
    rw [ordinal_size, hcode, ← ordinal_size]
    exact ordinal_lt hi (lt_size_of_has hi)
  obtain ⟨i', hi', hordinal⟩ := exists_ordinal_eq hlt
  exact ⟨i', hi, hi', hordinal⟩

/-- The significant indices of the two streams match one by one. -/
theorem forall₂_codeIndices : List.Forall₂ (Matches s s') s.codeIndices s'.codeIndices := by
  have hordinals : s.codeIndices.map s.ordinal = s'.codeIndices.map s'.ordinal := by
    rw [codeIndices, codeIndices, map_ordinal_filter_range, map_ordinal_filter_range, ordinal_size,
      ordinal_size, hcode]
  rw [← List.forall₂_eq_eq_eq, List.forall₂_map_left_iff, List.forall₂_map_right_iff] at hordinals
  refine List.forall₂_iff_zip.2 ⟨hordinals.length_eq, fun {i i'} hmem => ?_⟩
  obtain ⟨hi, hi'⟩ := List.of_mem_zip hmem
  exact ⟨(List.mem_filter.1 hi).2, (List.mem_filter.1 hi').2, (List.forall₂_zip hordinals hmem).symm⟩

/-- Answers that are told by the ordinal of the significant token they lead to match. -/
theorem rel_matches {o o' : Option Nat} {P : Nat → Prop}
    (ho : ∀ j, o = some j ↔ s.has j Kind.isSignificant = true ∧ P (s.ordinal j))
    (ho' : ∀ j, o' = some j ↔ s'.has j Kind.isSignificant = true ∧ P (s'.ordinal j)) :
    Option.Rel (Matches s s') o o' := by
  cases o with
  | some j =>
    obtain ⟨hj, hordinal⟩ := (ho j).1 rfl
    obtain ⟨j', hmatch⟩ := exists_matches hcode hj
    rw [(ho' j').2 ⟨hmatch.right, hmatch.ordinal ▸ hordinal⟩]
    exact .some hmatch
  | none =>
    cases o' with
    | none => exact .none
    | some j' =>
      obtain ⟨hj', hordinal⟩ := (ho' j').1 rfl
      obtain ⟨j, hmatch⟩ := exists_matches hcode.symm hj'
      cases (ho j).2 ⟨hmatch.right, hmatch.ordinal ▸ hordinal⟩

/-- The significant tokens behind tokens that match do match. -/
theorem Matches.nextSignificant (h : Matches s s' i i') :
    Option.Rel (Matches s s') (s.nextSignificant i) (s'.nextSignificant i') :=
  rel_matches hcode (P := (· = s.ordinal i + 1)) (fun _ => nextSignificant_eq_some_iff_ordinal h.left)
    fun _ => by rw [nextSignificant_eq_some_iff_ordinal h.right, h.ordinal]

/-- The significant tokens before tokens that match do match. -/
theorem Matches.previousSignificant (h : Matches s s' i i') :
    Option.Rel (Matches s s') (s.previousSignificant i) (s'.previousSignificant i') :=
  rel_matches hcode (P := (s.ordinal i = · + 1)) (fun _ => previousSignificant_eq_some_iff_ordinal)
    fun _ => by rw [previousSignificant_eq_some_iff_ordinal, h.ordinal]

end SameCode

/-! ## Pairs -/

/-- In the stream of a source doc comments are closed. -/
theorem docClosed_kinds {source : Text} (h : ofSource source = .ok s) : DocClosed s.kinds := by
  obtain ⟨ls, hlaid⟩ := exists_laidOut h
  have hkinds : s.kinds = ls.map Lexeme.kind := by
    refine List.ext_getElem? fun i => ?_
    rw [getElem?_kinds, hlaid.kind?_eq, List.getElem?_map]
  rw [hkinds]
  exact Pairing.docClosed_of_reads hlaid.reads

/-- A pair is completed at the index of its closer. -/
theorem snd_of_step {waiting : List Waiting} {k : Kind} {pair : Nat × Nat}
    (h : (Pairing.step i waiting k).2 = some pair) : pair.2 = i := by
  rcases Pairing.step_cases i waiting k with
    ⟨d, -, hstep⟩ | ⟨w, outer, -, -, hstep⟩ | ⟨-, hstep⟩
  · rw [hstep] at h
    cases h
  · rw [hstep] at h
    exact congrArg Prod.snd (Option.some.inj h).symm
  · rw [hstep] at h
    cases h

/-- The significant pairs of a pass over a stream, with ordinals for indices. -/
def ordinalPairs (s : TokenStream) (pairs : List (Nat × Nat)) : List (Nat × Nat) :=
  (pairs.filter fun p => s.has p.2 Kind.isSignificant).map (movePair s.ordinal)

/-- The pairs of two lists are those of the one and those of the other. -/
theorem ordinalPairs_append (s : TokenStream) (ps qs : List (Nat × Nat)) :
    s.ordinalPairs (ps ++ qs) = s.ordinalPairs ps ++ s.ordinalPairs qs := by
  rw [ordinalPairs, List.filter_append, List.map_append]
  rfl

/-- At a significant token the pass does what the pass over the code does at its ordinal. -/
theorem ordinalPairs_step {waiting : List Waiting} {k : Kind}
    (hi : s.has i Kind.isSignificant = true) :
    s.ordinalPairs (Pairing.step i waiting k).2.toList =
      ((Pairing.step i waiting k).2.map (movePair s.ordinal)).toList := by
  cases hpair : (Pairing.step i waiting k).2 with
  | none => rfl
  | some pair =>
    have hkept : s.has pair.2 Kind.isSignificant = true := by rw [snd_of_step hpair, hi]
    rw [Option.toList_some, ordinalPairs, List.filter_cons, if_pos hkept]
    rfl

/-- Past a doc comment the ordinal is what it was, and its closer is not significant. -/
theorem past_doc {inner kinds : List Kind} (hinner : ∀ k ∈ inner, Comment.isInnerKind k = true)
    (h : s.kinds.drop i = .opens .docComment :: (inner ++ .closes .docComment :: kinds)) :
    s.kinds.drop (i + 1 + inner.length + 1) = kinds ∧
      s.ordinal (i + 1 + inner.length + 1) = s.ordinal i ∧
      s.has (i + 1 + inner.length) Kind.isSignificant = false := by
  have hfront : s.kinds.drop i = (.opens .docComment :: inner) ++ .closes .docComment :: kinds := h
  have hdoc : s.kinds.drop i =
      (.opens .docComment :: (inner ++ [.closes .docComment])) ++ kinds := by
    rw [h, List.cons_append, List.append_assoc, List.singleton_append]
  have hlength : i + (Kind.opens .docComment :: (inner ++ [.closes .docComment])).length =
      i + 1 + inner.length + 1 := by
    rw [List.length_cons, List.length_append, List.length_singleton]
    omega
  refine ⟨?_, ?_, ?_⟩
  · rw [← hlength, ← List.drop_drop, hdoc, List.drop_left]
  · rw [← hlength, ordinal_add hdoc, Pairing.filter_isSignificant_doc hinner]
    rfl
  · have hkind : s.kinds[i + (Kind.opens .docComment :: inner).length]? =
        some (.closes .docComment) := by
      rw [← List.getElem?_drop, hfront, List.getElem?_append_right (Nat.le_refl _), Nat.sub_self,
        List.getElem?_cons_zero]
    rw [Nat.add_assoc, Nat.add_comm 1, has, ← getElem?_kinds]
    exact congrArg (fun k : Option Kind => k.any Kind.isSignificant) hkind

/-- The significant pairs that the pass finds from an index on are those it finds in the code. -/
theorem ordinalPairs_pairsFrom {kinds : List Kind} (h : DocClosed kinds) :
    ∀ i waiting, s.kinds.drop i = kinds →
      s.ordinalPairs (pairsFrom i waiting kinds) =
        pairsFrom (s.ordinal i) (waiting.map (moveWaiting s.ordinal))
          (kinds.filter Kind.isSignificant) := by
  -- On the single tokens and doc comments from `i` on.
  induction h with
  | nil => exact fun i waiting _ => rfl
  | @cons k kinds hkind hrest ih =>
    intro i waiting hdrop
    have hk : s.kind? i = some k := by
      rw [← getElem?_kinds, ← List.head?_drop, hdrop, List.head?_cons]
    have hnext : s.kinds.drop (i + 1) = kinds := by
      rw [← List.drop_drop, hdrop, List.drop_one, List.tail_cons]
    have hi : s.has i Kind.isSignificant = k.isSignificant := by rw [has, hk, Option.any_some]
    cases hcode : k.isSignificant with
    | true =>
      rw [hcode] at hi
      rw [Pairing.pairsFrom_cons, ordinalPairs_append, ordinalPairs_step hi, ih (i + 1) _ hnext,
        ordinal_succ hi, List.filter_cons_of_pos hcode, Pairing.pairsFrom_cons, step_map]
    | false =>
      have hplain : ∀ k' ∈ [k], k'.isDelimiter = false := by
        intro k' hk'
        rw [List.mem_singleton.1 hk']
        exact Pairing.not_isDelimiter_of_trivia hkind hcode
      have hskip := Pairing.pairsFrom_append_of_plain i waiting hplain kinds
      rw [hcode] at hi
      rw [← List.singleton_append, hskip, List.length_singleton, ih (i + 1) _ hnext,
        ordinal_succ_of_not hi, List.singleton_append, List.filter_cons_of_neg (by simp [hcode])]
  | @doc inner kinds hinner hrest ih =>
    intro i waiting hdrop
    obtain ⟨hnext, hordinal, hcloser⟩ := past_doc hinner hdrop
    rw [Pairing.pairsFrom_doc i waiting hinner, ordinalPairs, List.filter_cons, if_neg (by simp [hcloser]),
      ← ordinalPairs, ih _ _ hnext, hordinal, Pairing.filter_isSignificant_doc hinner]

/-- **Doc comments disturb no pair**: the significant pairs of a stream of a source are the pairs of its
code. -/
theorem ordinalPairs_pairs {source : Text} (h : ofSource source = .ok s) :
    s.ordinalPairs (Pairing.pairs s.kinds) = Pairing.pairs (s.code.map Lexeme.kind) := by
  rw [kinds_code]
  have hpass := ordinalPairs_pairsFrom (docClosed_kinds h) 0 [] List.drop_zero
  rwa [ordinal, Nat.count_zero] at hpass

/-- Significant tokens are the ends of a pair when their ordinals are the ends of a pair of the code. -/
theorem mem_pairs_iff {source : Text} (h : ofSource source = .ok s)
    (hi : s.has i Kind.isSignificant = true) (hj : s.has j Kind.isSignificant = true) :
    (i, j) ∈ Pairing.pairs s.kinds ↔
      (s.ordinal i, s.ordinal j) ∈ Pairing.pairs (s.code.map Lexeme.kind) := by
  rw [← ordinalPairs_pairs h, ordinalPairs, List.mem_map]
  constructor
  · intro hmem
    exact ⟨(i, j), List.mem_filter.2 ⟨hmem, hj⟩, rfl⟩
  · rintro ⟨⟨o, c⟩, hmem, hordinals⟩
    obtain ⟨hpair, hc⟩ := List.mem_filter.1 hmem
    obtain ⟨-, d, ho, hc'⟩ := kind?_of_mem_pairs hpair
    obtain ⟨heqo, heqc⟩ := Prod.mk.inj hordinals
    have ho : s.has o Kind.isSignificant = true := by
      rw [has, ho]
      rw [has, hc'] at hc
      cases d <;> first | rfl | cases hc
    rw [← ordinal_injective ho hi heqo, ← ordinal_injective hc hj heqc]
    exact hpair

/-- The ends of a pair are significant together. -/
theorem has_isSignificant_of_partner? (h : s.partner? i = some j)
    (hi : s.has i Kind.isSignificant = true) : s.has j Kind.isSignificant = true := by
  have hends {o c : Nat} (hmem : (o, c) ∈ Pairing.pairs s.kinds) :
      s.has o Kind.isSignificant = s.has c Kind.isSignificant := by
    obtain ⟨-, d, ho, hc⟩ := kind?_of_mem_pairs hmem
    rw [has, has, ho, hc]
    cases d <;> rfl
  rcases partner?_eq_some_iff.1 h with hmem | hmem
  · rw [← hends hmem, hi]
  · rw [hends hmem, hi]

/-- The partner of a significant token is told by the pairs of the code. -/
theorem partner?_eq_some_iff_ordinal {source : Text} (h : ofSource source = .ok s)
    (hi : s.has i Kind.isSignificant = true) :
    s.partner? i = some j ↔ s.has j Kind.isSignificant = true ∧
      ((s.ordinal i, s.ordinal j) ∈ Pairing.pairs (s.code.map Lexeme.kind) ∨
        (s.ordinal j, s.ordinal i) ∈ Pairing.pairs (s.code.map Lexeme.kind)) := by
  constructor
  · intro hpartner
    have hj := has_isSignificant_of_partner? hpartner hi
    rw [← mem_pairs_iff h hi hj, ← mem_pairs_iff h hj hi]
    exact ⟨hj, partner?_eq_some_iff.1 hpartner⟩
  · rintro ⟨hj, hmem⟩
    rw [← mem_pairs_iff h hi hj, ← mem_pairs_iff h hj hi] at hmem
    exact partner?_eq_some_iff.2 hmem

/-- The partners of tokens that match do match. -/
theorem Matches.partner? {source source' : Text} (hs : ofSource source = .ok s)
    (hs' : ofSource source' = .ok s') (hcode : s'.code = s.code) (h : Matches s s' i i') :
    Option.Rel (Matches s s') (s.partner? i) (s'.partner? i') :=
  rel_matches hcode
    (P := fun n => (s.ordinal i, n) ∈ Pairing.pairs (s.code.map Lexeme.kind) ∨
      (n, s.ordinal i) ∈ Pairing.pairs (s.code.map Lexeme.kind))
    (fun _ => partner?_eq_some_iff_ordinal hs h.left)
    fun _ => by rw [partner?_eq_some_iff_ordinal hs' h.right, hcode, h.ordinal]

end TokenStream

end PhpLint

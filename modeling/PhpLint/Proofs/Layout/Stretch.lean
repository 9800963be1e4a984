import PhpLint.Proofs.Layout.Scope
import PhpLint.Proofs.Lexing.Search

/-!
# Stretches of the same tokens

Two streams of sources may hold the same tokens in a row, at different places.  What is searched within
such a stretch is found as far behind its start in the one stream as in the other (`SamePlace`), the lines
within it lie as far apart, and a doc comment in the one is a doc comment in the other.
-/

namespace PhpLint.TokenStream

variable {s s' : TokenStream} {o o' len x y : Nat}

/-- The token at an index, wherever it is placed. -/
def lexeme? (s : TokenStream) (i : Nat) : Option Lexeme :=
  (s.token? i).map fun t => ⟨t.kind, t.content⟩

/-- The same tokens stand from the one index to the one `len` behind it as from the other. -/
def SameTokens (s s' : TokenStream) (o o' len : Nat) : Prop :=
  ∀ x ≤ len, s'.lexeme? (o' + x) = s.lexeme? (o + x)

instance (s s' : TokenStream) (o o' len : Nat) : Decidable (SameTokens s s' o o' len) :=
  inferInstanceAs (Decidable (∀ x ≤ len, s'.lexeme? (o' + x) = s.lexeme? (o + x)))

/-- Indices as far behind the one start as behind the other. -/
def SamePlace (o o' len i i' : Nat) : Prop := ∃ x ≤ len, i = o + x ∧ i' = o' + x

/-- The kind of a token does not depend on its place. -/
theorem kind?_eq_lexeme? (s : TokenStream) (i : Nat) : s.kind? i = (s.lexeme? i).map Lexeme.kind := by
  rw [kind?, lexeme?, Option.map_map]
  rfl

/-- The content of a token does not depend on its place. -/
theorem content_eq_lexeme? (s : TokenStream) (i : Nat) :
    s.content i = ((s.lexeme? i).map Lexeme.text).getD [] := by
  rw [content, lexeme?, Option.map_map]
  rfl

/-- The token behind another one stands as many lines below as line feeds are in the other. -/
theorem line_succ {source : Text} (hs : ofSource source = .ok s) {i : Nat} (hi : i + 1 < s.size) :
    s.line (i + 1) = s.line i + (s.content i).count '\n' := by
  obtain ⟨ls, hlaid⟩ := exists_laidOut hs
  obtain ⟨t, ht⟩ := exists_token? (Nat.lt_of_succ_lt hi)
  obtain ⟨u, hu⟩ := exists_token? hi
  have hline := congrArg Position.line (hlaid.position_past (Nat.le_refl i) ht hu)
  rw [Position.line_past, hlaid.textBetween_self ht] at hline
  rw [line_of_token? ht, line_of_token? hu, content_of_token? ht]
  exact hline

namespace SameTokens

/-- Tokens at the same place of the stretch are of one kind. -/
theorem kind? (h : SameTokens s s' o o' len) (hx : x ≤ len) : s'.kind? (o' + x) = s.kind? (o + x) := by
  rw [kind?_eq_lexeme?, kind?_eq_lexeme?, h x hx]

/-- Tokens at the same place of the stretch have one content. -/
theorem content (h : SameTokens s s' o o' len) (hx : x ≤ len) :
    s'.content (o' + x) = s.content (o + x) := by
  rw [content_eq_lexeme?, content_eq_lexeme?, h x hx]

/-- What is asked of the kind is answered alike at the same place. -/
theorem has (h : SameTokens s s' o o' len) (hx : x ≤ len) (p : Kind → Bool) :
    s'.has (o' + x) p = s.has (o + x) p := by
  rw [TokenStream.has, TokenStream.has, h.kind? hx]

/-- A kind stands at the same place in both streams. -/
theorem isAt (h : SameTokens s s' o o' len) (hx : x ≤ len) (k : Kind) :
    s'.isAt (o' + x) k = s.isAt (o + x) k := by
  rw [TokenStream.isAt, TokenStream.isAt, h.kind? hx]

/-- A place of the stretch lies in the one stream when it lies in the other. -/
theorem size_iff (h : SameTokens s s' o o' len) (hx : x ≤ len) : o' + x < s'.size ↔ o + x < s.size := by
  have hlexeme {s : TokenStream} {i : Nat} : i < s.size ↔ (s.lexeme? i).isSome = true := by
    simp [lexeme?, token?, size]
  rw [hlexeme, hlexeme, h x hx]

/-- The lines of a stretch lie as far apart in the one stream as in the other. -/
theorem line {source source' : Text} (hs : ofSource source = .ok s)
    (hs' : ofSource source' = .ok s') (h : SameTokens s s' o o' len) (hx : x ≤ len)
    (hsize : o + x < s.size) : s'.line (o' + x) + s.line o = s.line (o + x) + s'.line o' := by
  induction x with
  | zero => exact Nat.add_comm _ _
  | succ x ih =>
    have hbefore := ih (Nat.le_of_succ_le hx) (by omega)
    rw [← Nat.add_assoc, ← Nat.add_assoc, line_succ hs (i := o + x) hsize,
      line_succ hs' (i := o' + x) ((h.size_iff hx).2 hsize), h.content (Nat.le_of_succ_le hx)]
    omega

/-! ## Searches -/

/-- What fits in the same way is found at the same places. -/
theorem forall₂_filter {f f' : Nat → Bool} (hf : ∀ k ≤ len, f' (o' + k) = f (o + k))
    (hy : y ≤ len + 1) :
    List.Forall₂ (SamePlace o o' len) ((List.range' (o + x) (y - x)).filter f)
      ((List.range' (o' + x) (y - x)).filter f') := by
  have hrange : List.Forall₂ (SamePlace o o' len) (List.range' (o + x) (y - x))
      (List.range' (o' + x) (y - x)) := by
    rw [List.range'_eq_map_range, List.range'_eq_map_range, List.forall₂_map_left_iff,
      List.forall₂_map_right_iff, List.forall₂_same]
    intro k hk
    have hlt := List.mem_range.1 hk
    exact ⟨x + k, by omega, by omega, by omega⟩
  refine List.rel_filter ?_ hrange
  rintro _ _ ⟨k, hk, rfl, rfl⟩
  dsimp only
  rw [hf k hk]

/-- A search within bounds takes the first index that fits. -/
theorem findNextBefore_eq_find? (s : TokenStream) (p : Kind → Bool) (start stop : Nat) :
    s.findNextBefore p start stop = (List.range' start (stop - start)).find? (s.has · p) := by
  refine Option.ext fun j => ?_
  rw [findNextBefore, Option.filter_eq_some_iff, findNext_eq_some_iff, List.find?_range'_eq_some,
    List.mem_range'_1, decide_eq_true_eq]
  constructor
  · rintro ⟨⟨hle, hj, hbefore⟩, hlt⟩
    exact ⟨hj, ⟨hle, by omega⟩, fun k hk hkj => by rw [hbefore k hk hkj]; rfl⟩
  · rintro ⟨hj, ⟨hle, hlt⟩, hbefore⟩
    exact ⟨⟨hle, hj, fun k hk hkj => (Bool.not_eq_true' _).mp (hbefore k hk hkj)⟩, by omega⟩

/-- What is found ahead in the stretch is found at the same place. -/
theorem findNextBefore (h : SameTokens s s' o o' len) (p : Kind → Bool) (hy : y ≤ len + 1) :
    Option.Rel (SamePlace o o' len) (s.findNextBefore p (o + x) (o + y))
      (s'.findNextBefore p (o' + x) (o' + y)) := by
  rw [findNextBefore_eq_find?, findNextBefore_eq_find?, Nat.add_sub_add_left, Nat.add_sub_add_left,
    ← List.head?_filter, ← List.head?_filter]
  exact (forall₂_filter (fun k hk => h.has hk p) hy).rel_head?

/-- What is found in the stretch is found at the same place. -/
theorem findBefore (h : SameTokens s s' o o' len) {p : Kind → Bool} (hx : x ≤ len) (hy : y ≤ len)
    (hfound : s.findBefore p (o + x) = some (o + y)) : s'.findBefore p (o' + x) = some (o' + y) := by
  obtain ⟨hlt, hp, hbetween⟩ := findBefore_eq_some_iff.1 hfound
  refine findBefore_eq_some_iff.2 ⟨by omega, by rwa [h.has hy], fun k hk hkx => ?_⟩
  obtain ⟨z, rfl⟩ : ∃ z, k = o' + z := ⟨k - o', by omega⟩
  rw [h.has (by omega)]
  exact hbetween (o + z) (by omega) (by omega)

/-! ## Doc comments -/

/-- A doc comment in the stretch is one in the other stream. -/
theorem docGroup (h : SameTokens s s' o o' len) (hx : x ≤ len) (hdoc : DocGroup s o (o + x)) :
    DocGroup s' o' (o' + x) := by
  have hopener := h.isAt (Nat.zero_le len) (.opens .docComment)
  have hlt := hdoc.lt
  refine ⟨by omega, hopener.trans hdoc.opener, (h.isAt hx _).trans hdoc.closer, fun k hk hkx => ?_⟩
  obtain ⟨z, rfl⟩ : ∃ z, k = o' + z := ⟨k - o', by omega⟩
  rw [h.has (by omega)]
  exact hdoc.inner (o + z) (by omega) (by omega)

/-- The tags of a doc comment stand at the same places, before its closer. -/
theorem docTags (h : SameTokens s s' o o' len) (hx : x ≤ len) (hdoc : DocGroup s o (o + x)) :
    List.Forall₂ (SamePlace o o' (x - 1)) (s.docTags o) (s'.docTags o') := by
  have hlt := hdoc.lt
  rw [TokenStream.docTags, TokenStream.docTags, hdoc.partner?.1, (h.docGroup hx hdoc).partner?.1]
  dsimp only
  rw [Nat.add_sub_cancel_left, Nat.add_sub_cancel_left]
  exact forall₂_filter (x := 0) (fun k hk => h.isAt (by omega) .docTag) (by omega)

/-- The same text stands in the stretch. -/
theorem textBetween (h : SameTokens s s' o o' len) (hx : x ≤ len) :
    s'.textBetween o' (o' + x) = s.textBetween o (o + x) := by
  have hcontents : ((s'.tokens.toList.take (o' + x + 1)).drop o').map Token.content =
      ((s.tokens.toList.take (o + x + 1)).drop o).map Token.content := by
    have hcontent {s : TokenStream} (i : Nat) :
        s.tokens.toList[i]?.map Token.content = (s.lexeme? i).map Lexeme.text := by
      rw [lexeme?, Option.map_map, token?, Array.getElem?_toList]
      rfl
    refine List.ext_getElem? fun k => ?_
    rw [List.getElem?_map, List.getElem?_map, List.getElem?_drop, List.getElem?_drop,
      List.getElem?_take, List.getElem?_take]
    by_cases hk : k < x + 1
    · rw [if_pos (by omega), if_pos (by omega), hcontent, hcontent, h k (by omega)]
    · rw [if_neg (by omega), if_neg (by omega)]
  rw [TokenStream.textBetween, TokenStream.textBetween, List.flatMap_def, List.flatMap_def, hcontents]

end SameTokens

end PhpLint.TokenStream

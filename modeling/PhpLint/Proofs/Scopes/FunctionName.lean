import PhpLint.Proofs.FunctionComment.Keyword
import PhpLint.Proofs.Lexing.Construct

/-!
# The names of functions

Two parties have to agree on the name of a function.  The lexer tells names from keywords by the last
token that carries code (`exists_read_behind`), and behind `function` it takes every word for a name.  The
look-up of a declared name steps over a reference sign, but the lexer does not: behind the sign a keyword
is a keyword.

So a function is named by every word that stands behind its keyword, and behind a reference sign by every
word that is no keyword (`functionName_found`).  A function that returns a reference and has the name of a
keyword is taken for a closure (`functionName_reference_keyword`).
-/

namespace PhpLint

theorem Kind.isTrivia_of_isDocComment {k : Kind} (h : k.isDocComment = true) : k.isTrivia = true := by
  unfold Kind.isTrivia
  split <;> trivial

/-- A text that can be a name: no digit in front, and nothing but letters, digits and underscores. -/
def Text.isWord (t : Text) : Bool := t.head?.any isNameStart && t.all isNameChar

/-! ## What a lexeme is read behind -/

namespace Scan

variable {previous : Option Kind} {c : Char} {rest t : Text} {k : Kind} {n : Nat}

/-- **The lexer remembers what carries code.**  Behind white space and comments it reads as it would right
behind what stood before them. -/
theorem exists_read_behind {mode : Mode} {front after : List Lexeme} {l : Lexeme}
    (hmode : mode = .code) (h : (ofText mode previous t).lexemes = front ++ l :: after)
    (hfront : ∀ x ∈ front, x.kind.isTrivia = true) (hl : l.kind.isTrivia = false) :
    ∃ c rest n, read previous c rest = .one l.kind n ∧ l.text = c :: rest.take n := by
  fun_induction ofText mode previous t generalizing front with
  | case1 => simp at h
  | case2 => cases hmode
  | case3 => cases hmode
  | case4 previous c rest k n hread ih =>
    cases front with
    | nil =>
      obtain ⟨rfl, -⟩ := List.cons.inj h
      exact ⟨c, rest, n, hread, rfl⟩
    | cons x front =>
      obtain ⟨rfl, hrest⟩ := List.cons.inj h
      have hk : k.isTrivia = true := hfront _ List.mem_cons_self
      have hprevious : previousAfter previous k = previous := if_pos hk
      have hcode : k ≠ .closeTag := by
        rintro rfl
        cases hk
      rw [hprevious] at ih
      exact ih (if_neg hcode) (hprevious ▸ hrest) fun x hx => hfront x (List.mem_cons_of_mem _ hx)
  | case5 previous c rest body hread ih =>
    -- A doc comment is skipped as a whole: none of its pieces carries code.
    rw [lexemes_after, List.append_eq_append_iff] at h
    rcases h with ⟨front', rfl, hrest⟩ | ⟨back, hdoc, hafter⟩
    · exact ih rfl hrest fun x hx => hfront x (List.mem_append_right _ hx)
    · cases back with
      | nil =>
        have hrest : _ = [] ++ l :: after := hafter.symm
        exact ih rfl hrest fun x hx => by cases hx
      | cons d back =>
        obtain ⟨rfl, -⟩ := List.cons.inj hafter
        have hpiece : l ∈ Comment.doc body := by
          rw [hdoc]
          simp
        rw [Kind.isTrivia_of_isDocComment (isDocComment_of_mem_doc hpiece)] at hl
        cases hl
  | case6 => simp at h

/-! ## Words and reference signs -/

/-- Where a name may start a word is read. -/
theorem read_word (previous : Option Kind) (rest : Text) (hc : isNameStart c = true) :
    read previous c rest = .one (Word.read previous c rest).1 (Word.read previous c rest).2 := by
  have hne (d : Char) (hd : isNameStart d = false) : (c == d) = false := by
    rw [beq_eq_false_iff_ne]
    rintro rfl
    exact ne_true_of_eq_false hd hc
  simp [read, isGap, isBlank, hne ' ' (by decide), hne '\t' (by decide), hne '\r' (by decide),
    hne '\n' (by decide), hne '?' (by decide), hne '#' (by decide), hne '/' (by decide),
    hne '$' (by decide), hc]

/-- A prefix of characters that fit is no longer than the longest one. -/
theorem length_take_le_of_all {p : Char → Bool} (h : (rest.take n).all p = true) :
    (rest.take n).length ≤ (rest.takeWhile p).length := by
  have hsplit : rest.takeWhile p = rest.take n ++ (rest.drop n).takeWhile p := by
    conv_lhs => rw [← List.take_append_drop n rest]
    exact List.takeWhile_append_of_pos (List.all_eq_true.1 h)
  rw [hsplit, List.length_append]
  exact Nat.le_add_right _ _

/-- The kind of a lexeme that is a word follows from the word and the last token that carries code. -/
theorem kind_of_isWord (hread : read previous c rest = .one k n)
    (hword : Text.isWord (c :: rest.take n) = true) :
    k = Word.kind previous (c :: rest.take n) := by
  rw [Text.isWord, Bool.and_eq_true, List.all_cons, Bool.and_eq_true] at hword
  obtain ⟨hstart, -, htail⟩ := hword
  rw [read_word previous rest hstart, Reading.one.injEq] at hread
  obtain ⟨rfl, rfl⟩ := hread
  have hplain : c :: rest.takeWhile isNameChar =
      c :: rest.take (rest.takeWhile isNameChar).length := by
    rw [← List.prefix_iff_eq_take.1 (List.takeWhile_prefix isNameChar)]
  dsimp only [Word.read] at htail ⊢
  split at htail
  · next hyield =>
    rw [if_pos hyield]
    split at htail
    · next more hfrom =>
      -- A `from` is taken along with the space before it, which is in no word.
      have hle := length_take_le_of_all htail
      unfold Word.fromLength? at hfrom
      dsimp only at hfrom
      obtain ⟨⟨hgap, -⟩, heq⟩ := Option.ite_none_right_eq_some.1 hfrom
      have hshort := (List.takeWhile_prefix (l := rest.drop (rest.takeWhile isNameChar).length)
        Unicode.isSpace).length_le
      rw [List.length_drop] at hshort
      rw [List.length_take] at hle
      have heq := Option.some.inj heq
      omega
    · exact congrArg (Word.kind previous) hplain
  · next hyield =>
    rw [if_neg hyield]
    exact congrArg (Word.kind previous) hplain

/-- A lexeme that is an ampersand is an operator. -/
theorem kind_of_reference (hread : read previous c rest = .one k n)
    (hand : c :: rest.take n = ['&']) : k = .operator := by
  obtain ⟨rfl, hnil⟩ := List.cons.inj hand
  cases construct_of_read hread with
  | single hk => exact hk.symm
  | @longer spelling _ hentry hfront =>
    have htable : ∀ entry ∈ Operator.longer, 2 ≤ entry.1.length := by decide
    have hlong : 2 ≤ spelling.length := htable _ hentry
    have hle := hfront.length_le
    rw [List.length_cons] at hle
    have hlength := congrArg List.length hnil
    rw [List.length_take, List.length_nil] at hlength
    omega
  | whitespace hc => simp [isGap, isBlank] at hc
  | number hc => simp [Char.isDigit] at hc
  | identifier hc => cases hc
  | keyword hc => cases hc
  | yieldFrom hc => cases hc
  | quoted hc => cases hc
  | closeTag hc => cases hc
  | attributeSign hc => cases hc
  | hashComment hc => cases hc
  | slashComment hc => cases hc
  | blockComment hc => cases hc
  | variableName hc => cases hc
  | heredoc hc => cases hc

end Scan

namespace TokenStream

variable {source : Text} {s : TokenStream} {i n : Nat} {k : Kind}

/-- Behind a keyword or a sign, white space and comments left out, the lexer reads as it would right
behind it. -/
theorem exists_read_of_nextSignificant (h : ofSource source = .ok s) (hi : s.kind? i = some k)
    (htrivia : k.isTrivia = false) (hcode : k ≠ .openTag ∧ k ≠ .inlineHtml ∧ k ≠ .closeTag)
    (hnext : s.nextSignificant i = some n) :
    ∃ c rest m kind, Scan.read (some k) c rest = .one kind m ∧ s.kind? n = some kind ∧
      s.content n = c :: rest.take m := by
  obtain ⟨ls, hlaid, hoccurs⟩ := exists_occurs h
  obtain ⟨hlt, hsignificant, hbetween⟩ := nextSignificant_eq_some_iff.1 hnext
  obtain ⟨t, ht, rfl⟩ := Option.map_eq_some_iff.1 hi
  obtain ⟨u, hu⟩ := exists_token? (lt_size_of_has hsignificant)
  have hkind : s.kind? n = some u.kind := kind?_of_token? hu
  have hcontent : s.content n = u.content := content_of_token? hu
  obtain ⟨front, skipped, after, hls, hfront, hskipped⟩ :=
    exists_append_of_getElem? hlt (hlaid.lexeme_eq ht) (hlaid.lexeme_eq hu)
  have hdoc : t.kind.isDocComment = false := by
    by_contra hpiece
    rw [Kind.isTrivia_of_isDocComment (eq_true_of_ne_false hpiece)] at htrivia
    cases htrivia
  obtain ⟨previous, -, -, -, -, -, -, hscan⟩ :=
    (hoccurs i _ (hlaid.lexeme_eq ht)).exists_construct hcode.1 hcode.2.1 hdoc
  have hprevious : Scan.previousAfter previous t.kind = some t.kind :=
    if_neg (ne_true_of_eq_false htrivia)
  have hafter : ls.drop (i + 1) = skipped ++ ⟨u.kind, u.content⟩ :: after := by
    rw [hls, ← hfront]
    simp
  rw [hprevious, if_neg hcode.2.2, hafter] at hscan
  have htriviaBetween : ∀ x ∈ skipped, x.kind.isTrivia = true := by
    intro x hx
    obtain ⟨m, hm⟩ := List.mem_iff_getElem?.1 hx
    have hlength := (List.getElem?_eq_some_iff.1 hm).1
    have hx : ls[i + 1 + m]? = some x := by
      rw [← List.getElem?_drop, hafter, List.getElem?_append_left hlength, hm]
    have htrivia := hbetween (i + 1 + m) (by omega) (by omega)
    rwa [has, hlaid.kind?_eq, hx] at htrivia
  have hu : u.kind.isTrivia = false := by
    rw [has, hkind] at hsignificant
    simpa [Kind.isSignificant] using hsignificant
  obtain ⟨c, rest, m, hread, htext⟩ :=
    Scan.exists_read_behind rfl hscan.symm htriviaBetween hu
  exact ⟨c, rest, m, u.kind, hread, hkind, hcontent.trans htext⟩

/-! ## The name behind a function keyword -/

/-- The word that follows the keyword at `i` stands at `n`, white space and comments left out, and so may
one reference sign be. -/
inductive Follows (s : TokenStream) (i n : Nat) : (reference : Bool) → Prop
  | plain (hnext : s.nextSignificant i = some n) : Follows s i n false
  | reference {sign : Nat} (hsign : s.nextSignificant i = some sign) (hand : s.content sign = ['&'])
      (hnext : s.nextSignificant sign = some n) : Follows s i n true

/-- A function keyword at `i`, a word at `n`, and a parenthesis behind it. -/
structure FunctionWord (s : TokenStream) (i n : Nat) (reference : Bool) : Prop where
  keyword : s.kind? i = some (.keyword .kwFunction)
  follows : s.Follows i n reference
  word : Text.isWord (s.content n) = true
  parenthesis : (s.nextSignificant n).any (s.isAt · (.opens .round)) = true

/-- A word is no sign. -/
theorem content_ne_reference (hword : Text.isWord (s.content n) = true) : s.content n ≠ ['&'] := by
  intro hand
  rw [hand] at hword
  cases hword

/-- The kind of the word: right behind the keyword a plain name, and behind a reference sign what it would
be anywhere. -/
theorem FunctionWord.kind_eq {reference : Bool} (h : ofSource source = .ok s)
    (hword : s.FunctionWord i n reference) :
    s.kind? n = some (if reference then
      Word.kind (some .operator) (s.content n) else .identifier) := by
  cases hword.follows with
  | plain hnext =>
    obtain ⟨c, rest, m, kind, hread, hkind, hcontent⟩ :=
      exists_read_of_nextSignificant h hword.keyword rfl (by decide) hnext
    have hshape := hword.word
    rw [hcontent] at hshape
    rw [hkind, Scan.kind_of_isWord hread hshape]
    rfl
  | reference hsign hand hnext =>
    obtain ⟨c, rest, m, kind, hread, hkind, hcontent⟩ :=
      exists_read_of_nextSignificant h hword.keyword rfl (by decide) hsign
    rw [Scan.kind_of_reference hread (hcontent.symm.trans hand)] at hkind
    obtain ⟨c, rest, m, kind, hread, hkind, hcontent⟩ :=
      exists_read_of_nextSignificant h hkind rfl (by decide) hnext
    have hshape := hword.word
    rw [hcontent] at hshape
    rw [hkind, hcontent, Scan.kind_of_isWord hread hshape, if_pos rfl]

/-- What the look-up makes of the word: it is the name if the lexer took it for one. -/
theorem FunctionWord.declaredName?_eq {reference : Bool} (hword : s.FunctionWord i n reference) :
    s.declaredName? i = if s.isAt n .identifier then some (s.content n) else none := by
  cases hword.follows with
  | plain hnext =>
    simp only [declaredName?, hnext, Option.bind_eq_bind, Option.bind_some,
      if_neg (content_ne_reference hword.word)]
  | reference hsign hand hnext =>
    simp only [declaredName?, hsign, Option.bind_eq_bind, Option.bind_some, if_pos hand, hnext]

/-- Behind a reference sign a word is a keyword if it is spelled like one. -/
theorem kind_behind_reference (word : Text) :
    Word.kind (some .operator) word =
      match Keyword.ofSpelling? (Text.foldCase word) with
      | some k => .keyword k
      | none => .identifier :=
  rfl

/-- **The name of a function is found**, and the function is taken for no closure, whatever the word, as
long as no reference sign stands before a keyword.  Behind the sign a keyword is no name. -/
theorem functionName_found {reference : Bool} (h : ofSource source = .ok s)
    (hword : s.FunctionWord i n reference) :
    (reference = false ∨ Keyword.ofSpelling? (Text.foldCase (s.content n)) = none →
        s.declaredName? i = some (s.content n) ∧ s.isClosure i = false) ∧
      (reference = true → Keyword.ofSpelling? (Text.foldCase (s.content n)) ≠ none →
        s.declaredName? i = none ∧ s.isClosure i = true) := by
  have hclosure : s.isClosure i = (s.declaredName? i).isNone := by
    rw [isClosure, isAt_iff.2 hword.keyword, Bool.true_and]
  rw [hclosure, hword.declaredName?_eq]
  constructor
  · intro hplain
    have hname : s.isAt n .identifier = true := by
      rw [isAt_iff, hword.kind_eq h]
      rcases hplain with rfl | hnone
      · rfl
      · cases reference with
        | false => rfl
        | true => rw [if_pos rfl, kind_behind_reference, hnone]
    rw [if_pos hname]
    exact ⟨rfl, rfl⟩
  · rintro rfl hkeyword
    obtain ⟨w, hw⟩ := Option.ne_none_iff_exists'.1 hkeyword
    have hname : ¬s.isAt n .identifier = true := by
      rw [isAt_iff, hword.kind_eq h, if_pos rfl, kind_behind_reference, hw]
      exact fun heq => Kind.noConfusion (Option.some.inj heq)
    rw [if_neg hname]
    exact ⟨rfl, rfl⟩

/-- Two methods, one of them with the name of a keyword. -/
def commentedMethods : Text :=
  ("<?php class C \x7b function /* a */ new () \x7b\x7d " ++
    "function & /* b */ item() \x7b\x7d \x7d").toList

/-- The name of a keyword behind a comment, and behind a reference sign a name that no keyword has. -/
theorem functionName_found_commented :
    ∃ s, ofSource commentedMethods = .ok s ∧
      (s.content 11 = "new".toList ∧ s.FunctionWord 7 11 false ∧
        s.declaredName? 7 = some (s.content 11) ∧ s.isClosure 7 = false) ∧
      s.content 25 = "item".toList ∧ s.FunctionWord 19 25 true ∧
        s.declaredName? 19 = some (s.content 25) ∧ s.isClosure 19 = false := by
  have hcomputed : (ofSource commentedMethods).map (fun s => decide (
        ((s.content 11 = "new".toList ∧ s.kind? 7 = some (.keyword .kwFunction)) ∧
          s.nextSignificant 7 = some 11 ∧
          (s.nextSignificant 11).any (s.isAt · (.opens .round)) = true) ∧
        (s.content 25 = "item".toList ∧ s.kind? 19 = some (.keyword .kwFunction)) ∧
          (s.nextSignificant 19 = some 21 ∧ s.content 21 = ['&'] ∧ s.nextSignificant 21 = some 25) ∧
          (s.nextSignificant 25).any (s.isAt · (.opens .round)) = true)) = .ok true := by
    decide +kernel
  obtain ⟨s, hs, hall⟩ := exists_of_map_ofSource hcomputed
  obtain ⟨⟨⟨hnew, hkeyword⟩, hnext, hopens⟩, ⟨hitem, hkeyword'⟩, ⟨hsign, hand, hnext'⟩, hopens'⟩ :=
    of_decide_eq_true hall
  have hplain : s.FunctionWord 7 11 false := ⟨hkeyword, .plain hnext, by rw [hnew]; rfl, hopens⟩
  have hreference : s.FunctionWord 19 25 true :=
    ⟨hkeyword', .reference hsign hand hnext', by rw [hitem]; rfl, hopens'⟩
  have hnone : Keyword.ofSpelling? (Text.foldCase (s.content 25)) = none := by
    rw [hitem]
    decide
  exact ⟨s, hs, ⟨hnew, hplain, (functionName_found hs hplain).1 (.inl rfl)⟩, hitem, hreference,
    (functionName_found hs hreference).1 (.inr hnone)⟩

/-- A function that returns a reference and has the name of a keyword is taken for a closure. -/
theorem functionName_reference_keyword :
    ∃ s, ofSource "<?php class C \x7b function &new() \x7b\x7d \x7d".toList = .ok s ∧
      (s.FunctionWord 7 10 true ∧ s.content 10 = "new".toList) ∧
      s.declaredName? 7 ≠ some "new".toList ∧ s.isClosure 7 ≠ false := by
  have hcomputed : (ofSource "<?php class C \x7b function &new() \x7b\x7d \x7d".toList).map
      (fun s => decide (
        (s.content 10 = "new".toList ∧ s.kind? 7 = some (.keyword .kwFunction)) ∧
        (s.nextSignificant 7 = some 9 ∧ s.content 9 = ['&'] ∧ s.nextSignificant 9 = some 10) ∧
        (s.nextSignificant 10).any (s.isAt · (.opens .round)) = true ∧
        s.declaredName? 7 ≠ some "new".toList ∧ s.isClosure 7 ≠ false)) = .ok true := by
    decide +kernel
  obtain ⟨s, hs, hall⟩ := exists_of_map_ofSource hcomputed
  obtain ⟨⟨hnew, hkeyword⟩, ⟨hsign, hand, hnext⟩, hopens, hname, hclosure⟩ := of_decide_eq_true hall
  have hword : s.FunctionWord 7 10 true :=
    ⟨hkeyword, .reference hsign hand hnext, by rw [hnew]; rfl, hopens⟩
  exact ⟨s, hs, ⟨hword, hnew⟩, hname, hclosure⟩

end TokenStream

end PhpLint

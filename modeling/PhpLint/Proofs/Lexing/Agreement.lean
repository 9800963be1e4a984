import PhpLint.Proofs.Lexing.Readers

/-!
# What a token's kind says of its text

Every token of a source is of the class of its kind (`TokenStream.agrees_ofSource`).  For text outside of
code the class is not enough: an open tag may start in such a text and end behind it, so what follows in
the source counts as well (`Scan.TagFree`).

`Scan.admitted_read` goes through the guards of the scanner once.  A sign that no guard before has taken
is one that starts nothing else, which is why the operators come last.
-/

namespace PhpLint

namespace Scan

variable {previous : Option Kind} {c : Char} {rest : Text} {k : Kind} {n : Nat}

/-! ## One reading -/

/-- A reading, if it is a single lexeme, takes a text of the class of its kind. -/
def Admitted (c : Char) (rest : Text) : Reading → Prop
  | .one k n => k.Admits (c :: rest.take n)
  | _ => True

theorem Admitted.ite {p : Prop} [Decidable p] {r r' : Reading} (hpos : p → Admitted c rest r)
    (hneg : ¬p → Admitted c rest r') : Admitted c rest (if p then r else r') :=
  iteInduction hpos hneg

/-- A closing tag takes the line feed behind it along, if there is one. -/
theorem admits_closeTag (hnext : rest.head? = some '>') :
    Kind.closeTag.Admits ('?' :: rest.take (if (rest.drop 1).head? = some '\n' then 2 else 1)) := by
  obtain ⟨after, rfl⟩ := List.head?_eq_some_iff.1 hnext
  rw [List.drop_succ_cons, List.drop_zero]
  apply Kind.admits_of_mem_spellings
  split
  · next hfeed =>
    obtain ⟨after, rfl⟩ := List.head?_eq_some_iff.1 hfeed
    exact List.mem_cons_of_mem _ List.mem_cons_self
  · exact List.mem_cons_self

/-- The sign that starts attributes is an operator. -/
theorem admits_attributeSign (hnext : rest.head? = some '[') :
    Kind.operator.Admits ('#' :: rest.take 1) := by
  rw [List.take_one, hnext]
  exact .inl List.mem_cons_self

/-- What is read as a number is an integer or a float, as its kind says. -/
theorem admits_number (hc : c.isDigit = true ∨ c = '.' ∧ rest.head?.any Char.isDigit = true) :
    (Number.read (c :: rest)).1.Admits (c :: rest.take ((Number.read (c :: rest)).2 - 1)) := by
  have hstart : Number.startsWithDigit (c :: rest) = true ∨
      Number.fractionLength (c :: rest) ≠ 0 := by
    refine hc.imp id fun hpoint => ?_
    rw [Number.fractionLength_eq, if_pos ⟨congrArg some hpoint.1, hpoint.2⟩]
    omega
  obtain ⟨hadmits, hpos⟩ := Number.admits_read hstart
  rwa [List.take_cons hpos] at hadmits

/-- Whatever is taken at the front of code as a single lexeme is of the class of its kind. -/
theorem admitted_read (previous : Option Kind) (c : Char) (rest : Text) :
    Admitted c rest (read previous c rest) := by
  dsimp only [read]
  refine .ite (fun hc => isWhitespace_take (by simpa using hc)) fun hspace => ?_
  refine .ite (fun hc => ?_) fun _ => ?_
  · obtain ⟨rfl, hnext⟩ := opens_iff.1 hc
    exact admits_closeTag hnext
  refine .ite (fun hc => ?_) fun hattribute => ?_
  · obtain ⟨rfl, hnext⟩ := opens_iff.1 hc
    exact admits_attributeSign hnext
  rw [opens_iff] at hattribute
  refine .ite (fun hc => .inl (Comment.isLine_take ?_)) fun hline => ?_
  · rw [Bool.or_eq_true, opens_iff, beq_iff_eq] at hc
    exact hc.imp_left fun hhash => ⟨hhash, fun hnext => hattribute ⟨hhash, hnext⟩⟩
  refine .ite (fun hc => .ite (fun _ => ?_) fun hplain => ?_) fun _ => ?_
  · cases Comment.untilClose (rest.drop 2) <;> trivial
  · obtain ⟨rfl, hnext⟩ := opens_iff.1 hc
    cases hclose : Comment.untilClose (rest.drop 1) with
    | none => trivial
    | some body => exact .inr (Comment.isBlock_take hnext (by simpa using hplain) hclose)
  refine .ite (fun hc => ?_) fun _ => ?_
  · rw [Bool.and_eq_true, beq_iff_eq] at hc
    obtain ⟨rfl, hname⟩ := hc
    refine ⟨_, rfl, ?_⟩
    rw [Text.take_length_takeWhile]
    exact Literal.isName_takeWhile hname
  refine .ite (fun hc => Word.admits_read previous rest hc) fun hname => ?_
  refine .ite (fun hc => admits_number (by simpa using hc)) fun hnumber => ?_
  refine .ite (fun hc => ?_) fun hquote => ?_
  · cases hclose : Literal.quotedTail? c rest with
    | none => trivial
    | some more => exact Literal.isQuoted_take hc hclose
  -- No guard has taken the character, so it is a sign, if not the start of a heredoc.
  have hoperator : (Operator.read c rest).1.Admits (c :: rest.take (Operator.read c rest).2) := by
    rw [Bool.or_eq_true, not_or, Bool.not_eq_true, beq_iff_eq] at hspace
    rw [Bool.or_eq_true, not_or, Bool.not_eq_true] at hnumber
    rw [Bool.or_eq_true, not_or, beq_iff_eq] at hline
    rw [Bool.not_eq_true] at hname hquote
    exact Operator.admits_read fun hsingle =>
      ⟨hspace.1, hspace.2, hname, hnumber.1, hquote, hline.1, hsingle⟩
  by_cases hc : (c == '<') = true
  · rw [if_pos hc]
    cases hclose : Literal.heredoc? rest with
    | none => exact hoperator
    | some outcome =>
      cases outcome with
      | error fault => trivial
      | ok more =>
        obtain rfl := beq_iff_eq.1 hc
        exact Literal.isHeredoc_take hclose
  · rw [if_neg hc]
    exact hoperator

/-- What a step takes as a single lexeme is of the class of its kind. -/
theorem admits_of_read (h : read previous c rest = .one k n) : k.Admits (c :: rest.take n) := by
  have hadmitted := admitted_read previous c rest
  rwa [h] at hadmitted

/-! ## Text outside of code -/

/-- No open tag starts in a text when `after` follows it. -/
def TagFree (t after : Text) : Prop :=
  ∀ inside, inside <:+ t → inside ≠ [] → ∀ tag, IsOpenTag tag → ¬tag <+: inside ++ after

/-- The search for an open tag passes none. -/
theorem tagFree_take (h : openTagLength? (c :: rest) = none) :
    TagFree (c :: rest.take (untilOpenTag rest)) (rest.drop (untilOpenTag rest)) := by
  intro inside hinside hne tag htag
  refine not_isPrefix_of_openTagLength? ?_ htag
  obtain ⟨front, hfront⟩ := hinside
  have hsource : front ++ (inside ++ rest.drop (untilOpenTag rest)) = c :: rest := by
    rw [← List.append_assoc, hfront, List.cons_append, List.take_append_drop]
  cases front with
  | nil =>
    rw [List.nil_append] at hsource
    rwa [hsource]
  | cons d front =>
    have hrest : front ++ (inside ++ rest.drop (untilOpenTag rest)) = rest :=
      (List.cons.inj hsource).2
    have hlt : front.length < untilOpenTag rest := by
      have hlength := congrArg List.length hfront
      have hpos := List.length_pos_iff.2 hne
      simp only [List.cons_append, List.length_cons, List.length_append, List.length_take] at hlength
      omega
    have hnone := openTagLength?_drop hlt
    rwa [← hrest, List.drop_left] at hnone

/-- No construct of code is text outside of code. -/
theorem Construct.ne_inlineHtml (h : Construct previous c rest k n) : k ≠ .inlineHtml := by
  rintro rfl
  cases h with
  | number _ hnumber => rcases hnumber with h | h <;> cases h
  | longer hentry => simp [Operator.longer] at hentry
  | single hsingle => rcases sign?_of_single hsingle with h | h <;> cases h

/-! ## The lexemes of a scan -/

end Scan

/-- A lexeme that `after` follows is of the class of its kind, and no open tag starts in it if it is text
outside of code. -/
structure Lexeme.Agrees (l : Lexeme) (after : Text) : Prop where
  admits : l.kind.Admits l.text
  tagFree : l.kind = .inlineHtml → Scan.TagFree l.text after

/-- A lexeme that a step took agrees with what follows it. -/
theorem Scan.Taken.agrees {l : Lexeme} {after : List Lexeme} (h : Taken l after) :
    l.Agrees (Lexeme.spell after) := by
  cases h with
  | @openTag c rest n htag hfault =>
    refine ⟨?_, nofun⟩
    have htake := isOpenTag_take htag
    rwa [List.take_cons (openTagLength?_pos htag)] at htake
  | inlineHtml htext hfault =>
    refine ⟨List.cons_ne_nil _ _, fun _ => ?_⟩
    rw [(reads_ofText hfault).spell_eq]
    exact tagFree_take htext
  | code hread hfault =>
    exact ⟨admits_of_read hread, fun hk => absurd hk (construct_of_read hread).ne_inlineHtml⟩
  | doc hcloses hpiece hfault =>
    have hmem : l ∈ Comment.doc _ := hpiece ▸ List.mem_append_right _ List.mem_cons_self
    refine ⟨Comment.admits_doc hcloses l hmem, fun hk => ?_⟩
    have hdoc := isDocComment_of_mem_doc hmem
    rw [hk] at hdoc
    cases hdoc

/-! ## The tokens of a source -/

/-- A token of a source is of the class of its kind, and if it is text outside of code, no open tag of
the source starts in it. -/
structure Token.Agrees (source : Text) (t : Token) : Prop where
  admits : t.kind.Admits t.content
  tagFree : t.kind = .inlineHtml → ∃ before after, source = before ++ t.content ++ after ∧
    Text.utf8Length before = t.offset ∧ Scan.TagFree t.content after

/-- **Kind and text agree.**  Whatever the source, the text of each token is of the class of its kind. -/
theorem TokenStream.agrees_ofSource {source : Text} {s : TokenStream}
    (h : ofSource source = .ok s) : ∀ t ∈ s.tokens, t.Agrees source := by
  intro t hmem
  obtain ⟨i, ht⟩ := Array.mem_iff_getElem?.1 hmem
  obtain ⟨ls, hlaid, htaken⟩ := exists_taken h
  have hagrees := (htaken i _ (hlaid.lexeme_eq ht)).agrees
  refine ⟨hagrees.admits, fun hk => ?_⟩
  refine ⟨_, _, ?_, (hlaid.offset_eq ht).symm, hagrees.tagFree hk⟩
  rw [← hlaid.textBetween_self ht]
  exact hlaid.source_eq (Nat.le_refl i)

/-- Text, both tags, a keyword of two words, a float, a string and a comment. -/
theorem TokenStream.agrees_ofSource_mixed :
    let source := "<b><?PHP\nYield\tFROM .5e3 . 'it\\'s'; # note\n?>\n<?".toList
    let kinds : List Kind :=
      [.inlineHtml, .openTag, .yieldFrom, .whitespace, .float, .whitespace, .operator, .whitespace,
        .quoted, .semicolon, .whitespace, .comment, .whitespace, .closeTag, .inlineHtml]
    ∃ s, ofSource source = .ok s ∧ s.tokens.toList.map Token.kind = kinds ∧
      ∀ t ∈ s.tokens, t.Agrees source := by
  intro source kinds
  have hcomputed : (ofSource source).map (fun s => s.tokens.toList.map Token.kind) = .ok kinds := by
    decide +kernel
  obtain ⟨s, hs, hkinds⟩ := exists_of_map_ofSource hcomputed
  exact ⟨s, hs, hkinds, agrees_ofSource hs⟩

end PhpLint

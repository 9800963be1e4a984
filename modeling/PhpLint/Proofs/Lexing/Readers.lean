import PhpLint.Proofs.Lexing.Classes
import PhpLint.Proofs.Lexing.Marks
import PhpLint.Proofs.Text.Cut

/-!
# What each reader takes

A reader of the scanner answers a length, and the text of that length is of the class that the reader is
for.  The readers look at more text than they take: at the character that ends a run, at the sign behind a
letter, at every later line of a heredoc.  So a lemma about a reader first says what the length cuts off
(`Literal.exists_body_of_quotedTail?`, `Literal.exists_body_of_heredocTail?`) and then that this is of the
class.

There is one lemma for each reader: `Scan.isOpenTag_take`, `Scan.isWhitespace_take`,
`Comment.isLine_take`, `Comment.isBlock_take`, `Comment.admits_doc`, `Word.admits_read`,
`Number.admits_read`, `Literal.isQuoted_take`, `Literal.isHeredoc_take` and `Operator.admits_read`.
-/

namespace PhpLint

/-- A run of a class and a character of the class in front of it. -/
theorem Text.forall_mem_cons_takeWhile {p : Char → Bool} {c : Char} (hc : p c = true) (rest : Text) :
    ∀ d ∈ c :: rest.takeWhile p, p d = true := by
  intro d hd
  rcases List.mem_cons.1 hd with rfl | hd
  · exact hc
  · exact List.mem_takeWhile_imp hd

/-! ## Tags and white space -/

namespace Scan

variable {c : Char} {t rest : Text} {n : Nat}

/-- What is taken as an open tag is one. -/
theorem isOpenTag_take (h : openTagLength? t = some n) : IsOpenTag (t.take n) := by
  unfold openTagLength? at h
  split at h
  · next hecho =>
    obtain rfl := Option.some.inj h
    obtain ⟨rest, rfl⟩ := Text.startsWith_iff.1 hecho
    exact .echo
  split at h
  · next hword =>
    have htag (k : Nat) (hending : (t.drop 5).take k ∈ tagEndings) :
        IsOpenTag (t.take (5 + k)) := by
      rw [List.take_add]
      exact .word hword hending
    split at h
    · next hreturn =>
      obtain rfl := Option.some.inj h
      exact htag 2 (by simp [hreturn, tagEndings])
    · next d after _ hnext =>
      obtain rfl := Option.some.inj h
      split
      · next hblank =>
        have hending : [d] ∈ tagEndings := by
          simp only [isBlank, Bool.or_eq_true, beq_iff_eq] at hblank
          rcases hblank with (rfl | rfl) | rfl <;> decide
        exact htag 1 (by rwa [hnext])
      · exact htag 0 List.mem_cons_self
    · obtain rfl := Option.some.inj h
      exact htag 0 List.mem_cons_self
  · cases h

/-- Where no open tag is read, none stands. -/
theorem not_isPrefix_of_openTagLength? (h : openTagLength? t = none) {tag : Text}
    (htag : IsOpenTag tag) : ¬tag <+: t := by
  intro hfront
  obtain ⟨after, rfl⟩ := hfront
  unfold openTagLength? at h
  cases htag with
  | echo => cases h
  | @word word ending hword hending =>
    have hlength : word.length = 5 := by
      rw [← Text.length_foldCase, hword]
      rfl
    have htake : (word ++ ending ++ after).take 5 = word := by
      rw [List.append_assoc, ← hlength, List.take_left]
    split at h
    · cases h
    · rw [htake, if_pos hword] at h
      split at h <;> cases h

/-- No open tag starts before the place where the search for one stops. -/
theorem openTagLength?_drop {i : Nat} (h : i < untilOpenTag t) :
    openTagLength? (t.drop i) = none := by
  induction t generalizing i with
  | nil => cases h
  | cons c t ih =>
    rw [untilOpenTag] at h
    split at h
    · cases h
    · next hnone =>
      cases i with
      | zero => simpa using hnone
      | succ i => exact ih (by omega)

/-- What is taken as white space is white space. -/
theorem isWhitespace_take (hc : isGap c = true ∨ c = '\n') :
    IsWhitespace (c :: rest.take (whitespaceTail c rest)) := by
  unfold whitespaceTail
  split
  · next hfeed =>
    subst hfeed
    exact @IsWhitespace.line [] (by simp)
  · next hfeed =>
    have hrun : ∀ d ∈ c :: rest.takeWhile isGap, isGap d = true :=
      Text.forall_mem_cons_takeWhile (hc.resolve_right hfeed) rest
    dsimp only
    split
    · next hnext =>
      obtain ⟨after, hafter⟩ := List.head?_eq_some_iff.1 hnext
      rw [List.take_add, Text.take_length_takeWhile, hafter]
      exact .line hrun
    · rw [Text.take_length_takeWhile]
      exact .gap (List.cons_ne_nil c _) hrun

end Scan

/-! ## Comments -/

namespace Comment

variable {c : Char} {t rest : Text}

/-- A line comment holds no closing tag. -/
theorem tag_not_isInfix_untilLineEnd (t : Text) : ¬['?', '>'] <:+: untilLineEnd t := by
  fun_induction untilLineEnd t with
  | case1 | case2 | case3 => simp
  | case4 c rest hfeed hclose ih =>
    rw [List.infix_cons_iff, not_or]
    refine ⟨fun hfront => hclose ?_, ih⟩
    -- A closing tag in the comment would be one in the text.
    obtain ⟨rfl, hnext⟩ := List.cons_prefix_cons.1 hfront
    obtain ⟨after, hafter⟩ := hnext.trans (untilLineEnd_isPrefix rest)
    simp [← hafter]

theorem lineTail_isPrefix (t : Text) : lineTail t <+: t :=
  (Text.dropReturn_isPrefix _).trans (untilLineEnd_isPrefix t)

/-- A slash that a line comment starts with belongs to it. -/
theorem slash_isPrefix_lineTail (t : Text) : ['/'] <+: lineTail ('/' :: t) := by
  have hline : untilLineEnd ('/' :: t) = '/' :: untilLineEnd t := by simp [untilLineEnd]
  rw [lineTail, hline]
  rcases Text.dropReturn_cases ('/' :: untilLineEnd t) with hkeep | hdrop
  · rw [hkeep]
    exact ⟨_, rfl⟩
  · cases hfront : Text.dropReturn ('/' :: untilLineEnd t) with
    | nil =>
      rw [hfront] at hdrop
      cases hdrop
    | cons d u =>
      rw [hfront] at hdrop
      obtain ⟨rfl, -⟩ := List.cons.inj hdrop
      exact ⟨u, rfl⟩

/-- A line comment is read behind a hash or two slashes. -/
theorem isLine_take (hc : c = '#' ∧ rest.head? ≠ some '[' ∨ c = '/' ∧ rest.head? = some '/') :
    IsLine (c :: rest.take (lineTail rest).length) := by
  have hbegin := lineTail_isPrefix rest
  have hmark : c ≠ '\n' ∧ c ≠ '?' := by
    rcases hc with ⟨rfl, -⟩ | ⟨rfl, -⟩ <;> decide
  have hinside : lineTail rest <+: untilLineEnd rest := Text.dropReturn_isPrefix _
  rw [← List.prefix_iff_eq_take.1 hbegin]
  refine ⟨?_, ?_, ?_⟩
  · rcases hc with ⟨rfl, hnext⟩ | ⟨rfl, hnext⟩
    · refine .inr ⟨⟨_, rfl⟩, ?_⟩
      intro hfront
      apply hnext
      obtain ⟨after, hafter⟩ := (List.cons_prefix_cons.1 hfront).2.trans hbegin
      rw [← hafter]
      rfl
    · obtain ⟨after, rfl⟩ := List.head?_eq_some_iff.1 hnext
      exact .inl (List.cons_prefix_cons.2 ⟨rfl, slash_isPrefix_lineTail after⟩)
  · rw [List.mem_cons, not_or]
    exact ⟨hmark.1.symm, fun hmem => feed_notMem_untilLineEnd rest (hinside.subset hmem)⟩
  · intro htag
    rcases List.infix_cons_iff.1 htag with hfront | htail
    · exact hmark.2 (List.cons_prefix_cons.1 hfront).1.symm
    · exact tag_not_isInfix_untilLineEnd rest (htail.trans hinside.isInfix)

/-- A block comment is read up to the first end, if it is no doc comment. -/
theorem isBlock_take {body : Text} (hnext : rest.head? = some '*') (hplain : opensDoc rest = false)
    (hclose : untilClose (rest.drop 1) = some body) :
    IsBlock ('/' :: rest.take (body.length + 3)) := by
  obtain ⟨inner, rfl⟩ := List.head?_eq_some_iff.1 hnext
  rw [List.drop_succ_cons, List.drop_zero] at hclose
  obtain ⟨after, rfl⟩ := untilClose_eq_append hclose
  have hlength : ('*' :: (body ++ ['*', '/'])).length = body.length + 3 := by simp
  have htake : ('*' :: (body ++ ['*', '/'] ++ after)).take (body.length + 3) =
      '*' :: (body ++ ['*', '/']) := List.take_left' hlength
  rw [htake]
  apply IsBlock.intro (closesFirst_of_untilClose hclose)
  intro c hfront
  obtain ⟨tail, htail⟩ := hfront
  rw [← htail] at hplain
  exact hplain

/-! ### Inside of a doc comment -/

/-- The body of a comment does not hold its end. -/
theorem ClosesFirst.not_isInfix {body : Text} (h : ClosesFirst body) : ¬['*', '/'] <:+: body := by
  intro hinside
  obtain ⟨before, after, rfl⟩ := hinside
  have hnil := h before (after ++ ['*', '/']) (by simp)
  simp at hnil

/-- What is taken as text of a doc comment is such a text. -/
theorem isDocText_docTextTail (hc : isGap c = false) (hfeed : c ≠ '\n')
    (hopen : ¬['*', '/'] <:+: c :: rest) : IsDocText (c :: docTextTail c rest) := by
  obtain ⟨hblank, hreturn⟩ := Bool.or_eq_false_iff.1 hc
  have htext : c :: docTextTail c rest =
      Text.trimEndOf isBlank (c :: rest.takeWhile isLineChar) := by
    have htrim := Text.trimEndOf_append_cons hblank [] (rest.takeWhile isLineChar)
    rw [List.nil_append, List.nil_append] at htrim
    rw [docTextTail, htrim]
    rfl
  have hbegin := Text.trimEndOf_isPrefix isBlank (c :: rest.takeWhile isLineChar)
  have hline : ∀ d ∈ c :: rest.takeWhile isLineChar, isLineChar d = true := by
    apply Text.forall_mem_cons_takeWhile
    simpa [isLineChar, hfeed] using hreturn
  refine ⟨List.cons_ne_nil c _, ?_, ?_, ?_, ?_⟩
  · rw [htext]
    intro d hd
    exact hline d (hbegin.subset hd)
  · intro d hd
    obtain rfl := Option.some.inj hd
    exact hblank
  · rw [htext]
    intro d hd
    obtain ⟨hne, rfl⟩ := List.mem_getLast?_eq_getLast hd
    exact Bool.eq_false_iff.2 (List.rdropWhile_last_not isBlank _ hne)
  · intro hclose
    have hfront : c :: docTextTail c rest <+: c :: rest :=
      List.cons_prefix_cons.2 ⟨rfl, docTextTail_isPrefix c rest⟩
    exact hopen (hclose.trans hfront.isInfix)

/-- The lexemes of a doc comment's body are of their classes when the body does not hold its end. -/
theorem admits_docBody {content : Bool} (hopen : ¬['*', '/'] <:+: t) :
    ∀ l ∈ docBody content t, l.kind.Admits l.text := by
  have hrest {c : Char} {rest : Text} (n : Nat) (h : ¬['*', '/'] <:+: c :: rest) :
      ¬['*', '/'] <:+: rest.drop n := by
    intro hinside
    have hsuffix := (List.drop_suffix n rest).trans (List.suffix_cons c rest)
    exact h (hinside.trans hsuffix.isInfix)
  fun_induction docBody content t with
  | case1 => simp
  | case2 content rest ih =>
    exact List.forall_mem_cons.2 ⟨.inl List.mem_cons_self, ih (hrest 0 hopen)⟩
  | case3 content c rest hfeed hreturn ih =>
    refine List.forall_mem_cons.2 ⟨.inl ?_, ih (hrest 1 hopen)⟩
    simp only [Bool.and_eq_true, decide_eq_true_eq, beq_iff_eq] at hreturn
    obtain ⟨rfl, hnext⟩ := hreturn
    rw [List.take_one, hnext]
    decide
  | case4 content c rest hfeed hreturn hgap tail ih =>
    have hrun := Text.forall_mem_cons_takeWhile hgap rest
    exact List.forall_mem_cons.2 ⟨.inr ⟨List.cons_ne_nil c _, hrun⟩, ih (hrest _ hopen)⟩
  | case5 content c rest hfeed hreturn hgap hstar ih =>
    simp only [Bool.and_eq_true, decide_eq_true_eq] at hstar
    obtain ⟨rfl, -⟩ := hstar
    refine List.forall_mem_cons.2 ⟨?_, ih (hrest 0 hopen)⟩
    exact Kind.admits_of_mem_spellings (k := .docStar) List.mem_cons_self
  | case6 content c rest hfeed hreturn hgap hstar htag tail ih =>
    simp only [Bool.and_eq_true, decide_eq_true_eq] at htag
    obtain ⟨rfl, -⟩ := htag
    refine List.forall_mem_cons.2 ⟨.intro ?_ ?_, ih (hrest _ hopen)⟩
    · intro d hd
      simpa using List.mem_takeWhile_imp hd
    · intro hclose
      have hfront : '@' :: tail <+: '@' :: rest :=
        List.cons_prefix_cons.2 ⟨rfl, List.takeWhile_prefix _⟩
      exact hopen (hclose.trans hfront.isInfix)
  | case7 content c rest hfeed hreturn hgap hstar htag tail ih =>
    refine List.forall_mem_cons.2 ⟨?_, ih (hrest _ hopen)⟩
    exact isDocText_docTextTail (by simpa using hgap) hfeed hopen

/-- The lexemes of a whole doc comment are of their classes. -/
theorem admits_doc {body : Text} (h : ClosesFirst body) :
    ∀ l ∈ doc body, l.kind.Admits l.text := by
  intro l hl
  rcases mem_doc_iff.1 hl with rfl | hl | rfl
  · exact Kind.admits_of_mem_spellings (k := .opens .docComment) List.mem_cons_self
  · exact admits_docBody h.not_isInfix l hl
  · exact Kind.admits_of_mem_spellings (k := .closes .docComment) List.mem_cons_self

end Comment

/-! ## Words -/

/-- A run of characters of a name is a name when its first may start one. -/
theorem Literal.isName_cons_takeWhile {c : Char} (hc : isNameStart c = true) (rest : Text) :
    IsName (c :: rest.takeWhile isNameChar) where
  start := hc
  chars := by
    apply Text.forall_mem_cons_takeWhile
    rw [isNameChar, hc, Bool.true_or]

/-- The run in front of a text is a name when its first character may start one. -/
theorem Literal.isName_takeWhile {t : Text} (h : t.head?.any isNameStart = true) :
    IsName (t.takeWhile isNameChar) := by
  cases t with
  | nil => cases h
  | cons c rest =>
    have hname := isName_cons_takeWhile h rest
    rwa [List.takeWhile_cons_of_pos (hname.chars c List.mem_cons_self)]

namespace Word

variable {c : Char} {t : Text} {n : Nat}

/-- A word is a plain name, or the keyword that its letters say. -/
theorem admits_kind (previous : Option Kind) {word : Text} (h : Literal.IsName word) :
    (kind previous word).Admits word := by
  unfold kind
  dsimp only
  split
  · exact h
  · split
    · next w hw => exact ⟨h, hw⟩
    · exact h

/-- The second word of `yield from` is white space and the word `from` in any case. -/
theorem exists_of_fromLength? (h : fromLength? t = some n) :
    ∃ gap second, t.take n = gap ++ second ∧ gap ≠ [] ∧ (∀ c ∈ gap, Unicode.isSpace c = true) ∧
      Text.foldCase second = "from".toList := by
  unfold fromLength? at h
  dsimp only at h
  split at h
  · next hfrom =>
    obtain rfl := Option.some.inj h
    refine ⟨t.takeWhile Unicode.isSpace, _, ?_, ?_, fun c hc => List.mem_takeWhile_imp hc,
      hfrom.2.1⟩
    · rw [List.take_add, Text.take_length_takeWhile]
    · exact List.length_pos_iff.1 (Nat.pos_of_ne_zero hfrom.1)
  · cases h

/-- What is read as a word is of the class of its kind. -/
theorem admits_read (previous : Option Kind) (rest : Text) (hc : isNameStart c = true) :
    (read previous c rest).1.Admits (c :: rest.take (read previous c rest).2) := by
  have hplain : (kind previous (c :: rest.takeWhile isNameChar)).Admits
      (c :: rest.take (rest.takeWhile isNameChar).length) := by
    rw [Text.take_length_takeWhile]
    exact admits_kind previous (Literal.isName_cons_takeWhile hc rest)
  unfold read
  dsimp only
  split
  · next hyield =>
    split
    · next more hfrom =>
      obtain ⟨gap, second, htake, hne, hgap, hsecond⟩ := exists_of_fromLength? hfrom
      rw [List.take_add, Text.take_length_takeWhile, htake]
      exact .intro hyield hne hgap hsecond
    · exact hplain
  · exact hplain

end Word

/-! ## Numbers -/

namespace Number

variable {t : Text} {n : Nat}

/-- A run of digits is of their class when a digit starts it. -/
theorem isDigits_takeWhile (h : startsWithDigit t = true) : IsDigits (t.takeWhile isDigitOrMark) := by
  refine ⟨?_, fun c hc => List.mem_takeWhile_imp hc⟩
  cases t with
  | nil => cases h
  | cons c rest =>
    have hc : isDigitOrMark c = true := Bool.or_eq_true_iff.2 (.inl h)
    rw [List.takeWhile_cons_of_pos hc]
    exact h

/-- What is taken in another base is an integer, and not empty. -/
theorem isInteger_take_based (h : basedLength? t = some n) : IsInteger (t.take n) ∧ 0 < n := by
  unfold basedLength? at h
  split at h
  · next letter rest =>
    split at h
    · next hletter =>
      obtain rfl := Option.some.inj h
      rw [Nat.add_comm, List.take_succ_cons, List.take_succ_cons, Text.take_length_takeWhile]
      refine ⟨.based (by simpa using hletter) fun c hc => List.mem_takeWhile_imp hc, by omega⟩
    · cases h
  · cases h

/-- What is taken as a fraction is one, or empty. -/
theorem isFraction_take (t : Text) :
    fractionLength t = 0 ∨ IsFraction (t.take (fractionLength t)) := by
  unfold fractionLength
  split
  · next rest =>
    split
    · next hdigit =>
      right
      rw [Nat.add_comm, List.take_succ_cons, Text.take_length_takeWhile]
      exact .intro (isDigits_takeWhile hdigit)
    · exact .inl rfl
  · exact .inl rfl

/-- What is taken as an exponent is one, or empty. -/
theorem isExponent_take (t : Text) :
    exponentLength t = 0 ∨ IsExponent (t.take (exponentLength t)) := by
  unfold exponentLength
  split
  · next letter rest =>
    split
    · next hletter =>
      dsimp only
      generalize hlength : (if rest.head? = some '+' ∨ rest.head? = some '-' then 1 else 0) = k
      split
      · next hdigit =>
        right
        have hsign : rest.take k ∈ [[], ['+'], ['-']] := by
          subst hlength
          split
          · next hsign =>
            rcases hsign with hsign | hsign <;> simp [List.take_one, hsign]
          · exact List.mem_cons_self
        rw [Nat.add_comm 1 k, Nat.add_right_comm, List.take_succ_cons, List.take_add,
          Text.take_length_takeWhile]
        exact .intro (by simpa using hletter) hsign (isDigits_takeWhile hdigit)
      · exact .inl rfl
    · exact .inl rfl
  · exact .inl rfl

/-- There is at least one digit. -/
theorem IsDigits.length_pos (h : IsDigits t) : 0 < t.length := by
  cases t with
  | nil => cases h.start
  | cons c rest => exact Nat.succ_pos _

/-- The digits in front of a number are missing only where a fraction follows. -/
theorem isDigits_or_fraction (h : startsWithDigit t = true ∨ fractionLength t ≠ 0) :
    IsDigits (t.takeWhile isDigitOrMark) ∨ t.takeWhile isDigitOrMark = [] ∧
      fractionLength (t.drop (t.takeWhile isDigitOrMark).length) ≠ 0 := by
  rcases h with hdigit | hfraction
  · exact .inl (isDigits_takeWhile hdigit)
  · have hpoint := hfraction
    rw [fractionLength_eq, ne_eq, ite_eq_right_iff, Classical.not_imp] at hpoint
    obtain ⟨rest, rfl⟩ := List.head?_eq_some_iff.1 hpoint.1.1
    exact .inr ⟨rfl, hfraction⟩

/-- A number starts with a digit or with a fraction. -/
theorem admits_read (h : startsWithDigit t = true ∨ fractionLength t ≠ 0) :
    (read t).1.Admits (t.take (read t).2) ∧ 0 < (read t).2 := by
  unfold read
  split
  · next n hbased => exact isInteger_take_based hbased
  · have hwhole := isDigits_or_fraction h
    dsimp only
    rw [List.take_add, List.take_add, Text.take_length_takeWhile]
    generalize t.takeWhile isDigitOrMark = whole at hwhole
    have hfraction := isFraction_take (t.drop whole.length)
    generalize fractionLength (t.drop whole.length) = f at hwhole hfraction
    have hexponent := isExponent_take (t.drop (whole.length + f))
    generalize exponentLength (t.drop (whole.length + f)) = e at hexponent
    rcases hfraction with rfl | hfraction
    · have hdigits := hwhole.resolve_right fun hmissing => hmissing.2 rfl
      have hlength := hdigits.length_pos
      rw [List.take_zero, List.append_nil, Nat.zero_add]
      refine ⟨?_, by omega⟩
      rcases hexponent with rfl | hexponent
      · rw [List.take_zero, List.append_nil]
        exact .digits hdigits
      · have he : e ≠ 0 := by
          rintro rfl
          cases hexponent
        rw [if_neg he]
        exact .exponent hdigits hexponent
    · have hf : f ≠ 0 := by
        rintro rfl
        cases hfraction
      rw [if_neg (by omega)]
      refine ⟨.fraction ?_ hfraction ?_, by omega⟩
      · exact hwhole.symm.imp_left And.left
      · exact hexponent.imp_left fun he => by rw [he, List.take_zero]

end Number

/-! ## String literals -/

namespace Literal

variable {quote : Char} {marker t : Text} {n : Nat}

theorem NoQuote.nil : NoQuote quote [] := by
  intro before after h
  simp at h

/-- A character that is neither the quote nor a backslash does not count. -/
theorem NoQuote.plain {c : Char} {body : Text} (hc : c ≠ '\\') (hquote : c ≠ quote)
    (h : NoQuote quote body) : NoQuote quote (c :: body) := by
  intro before after heq hescaped
  cases before with
  | nil => exact hquote (List.cons.inj heq).1
  | cons d before =>
    obtain ⟨rfl, hbody⟩ := List.cons.inj heq
    cases hescaped with
    | plain _ hbefore => exact h before after hbody hbefore
    | pair => exact hc rfl

/-- A backslash takes what stands behind it along. -/
theorem NoQuote.pair {c : Char} {body : Text} (hquote : quote ≠ '\\') (h : NoQuote quote body) :
    NoQuote quote ('\\' :: c :: body) := by
  intro before after heq hescaped
  cases hescaped with
  | nil => exact hquote (List.cons.inj heq).1.symm
  | plain hd => exact hd (List.cons.inj heq).1.symm
  | pair hbefore =>
    obtain ⟨-, heq⟩ := List.cons.inj heq
    exact h _ after (List.cons.inj heq).2 hbefore

/-- A string is read up to the first quote that counts. -/
theorem exists_body_of_quotedTail? (hquote : quote ≠ '\\') (h : quotedTail? quote t = some n) :
    ∃ body, t.take n = body ++ [quote] ∧ Escaped body ∧ NoQuote quote body := by
  fun_induction quotedTail? quote t generalizing n with
  | case1 => cases h
  | case2 => cases h
  | case3 d t ih =>
    obtain ⟨m, hm, rfl⟩ := Option.map_eq_some_iff.1 h
    obtain ⟨body, htake, hescaped, hopen⟩ := ih hm
    refine ⟨'\\' :: d :: body, ?_, .pair hescaped, hopen.pair hquote⟩
    rw [List.take_succ_cons, List.take_succ_cons, htake]
    rfl
  | case4 t hlast hpair =>
    obtain rfl := Option.some.inj h
    exact ⟨[], rfl, .nil, .nil⟩
  | case5 c t hlast hpair hc ih =>
    obtain ⟨m, hm, rfl⟩ := Option.map_eq_some_iff.1 h
    obtain ⟨body, htake, hescaped, hopen⟩ := ih hm
    have hplain := ne_backslash_of_alone hlast hpair
    refine ⟨c :: body, ?_, .plain hplain hescaped, hopen.plain hplain hc⟩
    rw [List.take_succ_cons, htake]
    rfl

/-- What is taken as a string is quoted. -/
theorem isQuoted_take (hquote : Scan.isQuote quote = true) (h : quotedTail? quote t = some n) :
    IsQuoted (quote :: t.take n) := by
  have hne : quote ≠ '\\' := by
    rintro rfl
    exact absurd hquote (by decide)
  obtain ⟨body, htake, hescaped, hopen⟩ := exists_body_of_quotedTail? hne h
  rw [htake]
  exact .intro hquote hescaped hopen

/-! ### Heredocs -/

/-- A line that closes a heredoc and ends with a line feed closes it whatever follows. -/
theorem closesHeredoc_append {line : Text} (hmarker : IsName marker)
    (h : ClosesHeredoc marker line) (hfeed : '\n' ∈ line) (z : Text) :
    ClosesHeredoc marker (line ++ z) := by
  obtain ⟨blanks, after, rfl, hblanks, hafter⟩ := h
  refine ⟨blanks, after ++ z, by simp, hblanks, ?_⟩
  cases after with
  | nil =>
    -- The line feed would be a blank or a character of the marker.
    rw [List.append_nil, List.mem_append] at hfeed
    rcases hfeed with hfeed | hfeed
    · exact absurd (hblanks _ hfeed) (by decide)
    · exact absurd (hmarker.chars _ hfeed) (by decide)
  | cons c after => exact hafter

/-- Blanks and the marker close a heredoc. -/
theorem exists_of_heredocClose? (h : heredocClose? marker t = some n) :
    ∃ blanks after, t = blanks ++ (marker ++ after) ∧ n = (blanks ++ marker).length ∧
      ∀ c ∈ blanks, isBlank c = true := by
  unfold heredocClose? at h
  dsimp only at h
  split at h
  · next after hafter =>
    split at h
    · cases h
    · obtain rfl := Option.some.inj h
      refine ⟨t.takeWhile isBlank, after, ?_, (List.length_append ..).symm,
        fun c hc => List.mem_takeWhile_imp hc⟩
      rw [← Text.stripStart_eq_some_iff.1 hafter]
      exact List.prefix_append_drop (List.takeWhile_prefix isBlank)
  · cases h

/-- The lines of a heredoc's body from a place on, which is the start of a line or not. -/
structure IsBodyFrom (marker : Text) (lineStart : Bool) (body : Text) : Prop where
  start : body = [] → lineStart = true
  lines : StartsLine body
  opens : ∀ before line, body = before ++ line → line ≠ [] →
    (before = [] → lineStart = true) → StartsLine before → ¬ClosesHeredoc marker line

/-- A body from the start of a line on is the body of a heredoc. -/
theorem IsBodyFrom.isBody {body : Text} (h : IsBodyFrom marker true body) : IsBody marker body :=
  ⟨h.lines, fun before line hbody hne => h.opens before line hbody hne fun _ => rfl⟩

/-- The empty text is a body. -/
theorem IsBodyFrom.nil : IsBodyFrom marker true [] := by
  refine ⟨fun _ => rfl, .inl rfl, ?_⟩
  intro before line hbody hne
  exact absurd (List.append_eq_nil_iff.1 hbody.symm).2 hne

/-- A character goes in front of a body when it starts no line that closes. -/
theorem IsBodyFrom.cons {lineStart : Bool} {c : Char} {body : Text}
    (h : IsBodyFrom marker (c == '\n') body)
    (hopen : lineStart = true → ¬ClosesHeredoc marker (c :: body)) :
    IsBodyFrom marker lineStart (c :: body) := by
  refine ⟨fun hnil => absurd hnil (List.cons_ne_nil c body), .inr ?_, ?_⟩
  · rcases h.lines with rfl | ⟨front, rfl⟩
    · exact ⟨[], by rw [beq_iff_eq.1 (h.start rfl)]; rfl⟩
    · exact ⟨c :: front, rfl⟩
  · intro before line hbody hne hstart hbefore
    cases before with
    | nil =>
      rw [List.nil_append] at hbody
      rw [← hbody]
      exact hopen (hstart rfl)
    | cons d before =>
      obtain ⟨rfl, htail⟩ := List.cons.inj hbody
      obtain ⟨hfeed, hbefore⟩ := hbefore.of_cons
      exact h.opens before line htail hne (fun hnil => beq_iff_eq.2 (hfeed hnil)) hbefore

/-- A heredoc is read up to the marker on the first line that closes it. -/
theorem exists_body_of_heredocTail? (hmarker : IsName marker) {lineStart : Bool}
    (h : heredocTail? marker lineStart t = some n) :
    ∃ body blanks after, t = body ++ (blanks ++ (marker ++ after)) ∧
      n = (body ++ (blanks ++ marker)).length ∧ (∀ c ∈ blanks, isBlank c = true) ∧
      IsBodyFrom marker lineStart body := by
  induction t generalizing lineStart n with
  | nil => cases h
  | cons c rest ih =>
    rw [heredocTail?] at h
    split at h
    · next length hclose =>
      obtain rfl := Option.some.inj h
      obtain ⟨rfl, hclose⟩ := Option.ite_none_right_eq_some.1 hclose
      obtain ⟨blanks, after, htext, rfl, hblanks⟩ := exists_of_heredocClose? hclose
      exact ⟨[], blanks, after, htext, rfl, hblanks, .nil⟩
    · next hopen =>
      obtain ⟨m, hm, rfl⟩ := Option.map_eq_some_iff.1 h
      obtain ⟨body, blanks, after, rfl, rfl, hblanks, hbody⟩ := ih hm
      refine ⟨c :: body, blanks, after, rfl, rfl, hblanks, hbody.cons ?_⟩
      intro hstart hcloses
      -- The line would have closed the heredoc with all that follows in the text.
      have hfeed : '\n' ∈ c :: body := by
        rcases hbody.lines with rfl | ⟨front, rfl⟩
        · rw [beq_iff_eq.1 (hbody.start rfl)]
          exact List.mem_cons_self
        · simp
      have hfound := isSome_heredocClose? hmarker
        (closesHeredoc_append hmarker hcloses hfeed (blanks ++ (marker ++ after)))
      rw [if_pos hstart] at hopen
      rw [List.cons_append, hopen] at hfound
      cases hfound

/-- What is taken as a heredoc is one. -/
theorem isHeredoc_take (h : heredoc? t = some (.ok n)) : IsHeredoc ('<' :: t.take n) := by
  obtain ⟨marker, header, rest, hheader, rfl, houtcome⟩ := heredoc?_eq_some_iff.1 h
  split at houtcome
  · next tail htail =>
    obtain rfl := Except.ok.inj houtcome
    obtain ⟨body, blanks, after, rfl, rfl, hblanks, hbody⟩ :=
      exists_body_of_heredocTail? hheader.isName htail
    have htake : ('<' :: '<' :: (header ++ (body ++ (blanks ++ (marker ++ after))))).take
        (2 + header.length + (body ++ (blanks ++ marker)).length) =
          '<' :: '<' :: (header ++ (body ++ (blanks ++ marker))) := by
      have hsplit : '<' :: '<' :: (header ++ (body ++ (blanks ++ (marker ++ after)))) =
          '<' :: '<' :: (header ++ (body ++ (blanks ++ marker))) ++ after := by
        simp
      rw [hsplit]
      refine List.take_left' ?_
      simp only [List.length_cons, List.length_append]
      omega
    rw [htake]
    exact .intro hheader hbody.isBody hblanks
  · cases houtcome

end Literal

/-! ## Operators -/

namespace Operator

variable {c : Char} {rest : Text}

/-- No spelling is empty. -/
theorem ne_nil_of_mem_spellings {t : Text} {k : Kind} (h : t ∈ spellings k) : t ≠ [] := by
  intro hnil
  subst hnil
  revert h
  unfold spellings
  split <;> decide

/-- The operators of the table are spellings of their kinds. -/
theorem mem_spellings_of_longer {entry : Text × Kind} (h : entry ∈ longer) :
    entry.1 ∈ spellings entry.2 := by
  have htable : ∀ entry ∈ longer, entry.1 ∈ spellings entry.2 := by decide
  exact htable entry h

/-- A sign is a spelling of its kind, or has no kind of its own. -/
theorem mem_spellings_single (c : Char) : [c] ∈ spellings (single c) ∨ single c = .operator := by
  unfold single
  split
  case h_13 => exact .inr rfl
  all_goals exact .inl List.mem_cons_self

/-- What is read as an operator is of the class of its kind. -/
theorem admits_read (hsign : single c = .operator → IsSign c) :
    (read c rest).1.Admits (c :: rest.take (read c rest).2) := by
  unfold read
  split
  · next spelling kind hfound =>
    have hspelling := mem_spellings_of_longer (List.mem_of_find?_eq_some hfound)
    have hfront := List.find?_some hfound
    have htake : c :: rest.take (spelling.length - 1) = spelling := by
      have hne : spelling ≠ [] := ne_nil_of_mem_spellings hspelling
      obtain ⟨d, tail, rfl⟩ := List.exists_cons_of_ne_nil hne
      obtain ⟨rfl, htail⟩ := List.cons_prefix_cons.1 (Text.startsWith_iff.1 hfront)
      exact congrArg (d :: ·) (List.prefix_iff_eq_take.1 htail).symm
    rw [htake]
    exact Kind.admits_of_mem_spellings hspelling
  · rcases mem_spellings_single c with hspelling | hoperator
    · exact Kind.admits_of_mem_spellings hspelling
    · dsimp only
      rw [hoperator, List.take_zero]
      exact .inr ⟨c, rfl, hsign hoperator⟩

end Operator

end PhpLint

import PhpLint.Proofs.Lexing.Layout

/-!
# What a lexeme was read from

A scan forgets how it found a lexeme: the characters behind it, and the look-ahead that ruled the
other constructs out.  Here both are kept.  `Scan.Construct` lists what can stand at the front of
code, one constructor for each construct that is a single lexeme, and `construct_of_read` says that
the list is complete.  `Scan.Occurs l after` says where a lexeme `l` of a scan comes from when the
lexemes `after` follow it: an open tag, text outside of code, a construct, or a piece of a doc
comment, and in each case `after` is the scan of what the lexeme leaves.  `Scan.Taken` is the same with
the reading itself in place of the construct.

`taken_ofText` is the induction over the scanner.  A question about one token of a source is
answered by a case analysis on `Occurs` or `Taken` instead.
-/

namespace PhpLint

namespace Scan

/-- What stands at the front of code, with `more` characters behind its first, when it is read as a
single lexeme. -/
inductive Construct (previous : Option Kind) (c : Char) (rest : Text) : Kind → Nat → Prop
  | whitespace (hc : isGap c = true ∨ c = '\n') :
      Construct previous c rest .whitespace (whitespaceTail c rest)
  | closeTag (hc : c = '?') (hnext : rest.head? = some '>') :
      Construct previous c rest .closeTag (if (rest.drop 1).head? = some '\n' then 2 else 1)
  | attributeSign (hc : c = '#') (hnext : rest.head? = some '[') :
      Construct previous c rest .operator 1
  | hashComment (hc : c = '#') (hnext : rest.head? ≠ some '[') :
      Construct previous c rest .comment (Comment.lineTail rest).length
  | slashComment (hc : c = '/') (hnext : rest.head? = some '/') :
      Construct previous c rest .comment (Comment.lineTail rest).length
  | blockComment {body : Text} (hc : c = '/') (hnext : rest.head? = some '*')
      (hclose : Comment.untilClose (rest.drop 1) = some body) :
      Construct previous c rest .comment (body.length + 3)
  | variableName (hc : c = '$') :
      Construct previous c rest .variableName (rest.takeWhile isNameChar).length
  | identifier (hc : isNameStart c = true) :
      Construct previous c rest .identifier (rest.takeWhile isNameChar).length
  | keyword {w : Keyword} (hc : isNameStart c = true)
      (hspelling : w.spelling = Text.foldCase (c :: rest.takeWhile isNameChar)) :
      Construct previous c rest (.keyword w) (rest.takeWhile isNameChar).length
  | yieldFrom {more : Nat} (hc : isNameStart c = true)
      (hfrom : Word.fromLength? (rest.drop (rest.takeWhile isNameChar).length) = some more) :
      Construct previous c rest .yieldFrom ((rest.takeWhile isNameChar).length + more)
  | number {k : Kind} (hc : c.isDigit = true ∨ c = '.') (hk : k = .integer ∨ k = .float) :
      Construct previous c rest k ((Number.read (c :: rest)).2 - 1)
  | quoted {more : Nat} (hc : isQuote c = true) (hclose : Literal.quotedTail? c rest = some more) :
      Construct previous c rest .quoted more
  | heredoc {more : Nat} (hc : c = '<') (hclose : Literal.heredoc? rest = some (.ok more)) :
      Construct previous c rest .heredoc more
  | longer {spelling : Text} {k : Kind} (hentry : (spelling, k) ∈ Operator.longer)
      (hfront : spelling <+: c :: rest)
      (hslash : c = '/' → rest.head? ≠ some '/' ∧ rest.head? ≠ some '*') :
      Construct previous c rest k (spelling.length - 1)
  | single {k : Kind} (hk : Operator.single c = k) (hhash : c ≠ '#') (hquote : isQuote c = false)
      (hslash : c = '/' → rest.head? ≠ some '/' ∧ rest.head? ≠ some '*') :
      Construct previous c rest k 0

variable {previous : Option Kind} {c : Char} {rest : Text} {k : Kind} {n : Nat}

/-- A reading, if it is a single lexeme, is one of the constructs. -/
def Single (previous : Option Kind) (c : Char) (rest : Text) : Reading → Prop
  | .one k n => Construct previous c rest k n
  | _ => True

theorem Single.ite {p : Prop} [Decidable p] {r r' : Reading} (hpos : p → Single previous c rest r)
    (hneg : ¬p → Single previous c rest r') : Single previous c rest (if p then r else r') :=
  iteInduction hpos hneg

/-- A word is a plain name, a keyword in its letters, or a `yield` that takes its `from`. -/
theorem construct_word (previous : Option Kind) (rest : Text) (hc : isNameStart c = true) :
    Construct previous c rest (Word.read previous c rest).1 (Word.read previous c rest).2 := by
  have hplain : Construct previous c rest (Word.kind previous (c :: rest.takeWhile isNameChar))
      (rest.takeWhile isNameChar).length := by
    dsimp only [Word.kind]
    split
    · exact .identifier hc
    · split
      · next w hw => exact .keyword hc (Keyword.spelling_of_ofSpelling? hw)
      · exact .identifier hc
  dsimp only [Word.read]
  split
  · split
    · next more hfrom => exact .yieldFrom hc hfrom
    · exact hplain
  · exact hplain

theorem number_kind (t : Text) : (Number.read t).1 = .integer ∨ (Number.read t).1 = .float := by
  unfold Number.read
  grind

/-- An operator is one of the table, or a single character. -/
theorem construct_operator (previous : Option Kind) (hhash : c ≠ '#') (hquote : isQuote c = false)
    (hslash : c = '/' → rest.head? ≠ some '/' ∧ rest.head? ≠ some '*') :
    Construct previous c rest (Operator.read c rest).1 (Operator.read c rest).2 := by
  unfold Operator.read
  split
  · next hfound =>
    have hfront := List.find?_some hfound
    exact .longer (List.mem_of_find?_eq_some hfound) (Text.startsWith_iff.1 hfront) hslash
  · exact .single rfl hhash hquote hslash

/-- The two tests of a construct that opens with two characters. -/
theorem opens_iff {d e : Char} :
    (c == d && rest.head?.any (· == e)) = true ↔ c = d ∧ rest.head? = some e := by
  cases rest <;> simp

/-- Whatever stands at the front of the code, the list of the constructs has it. -/
theorem single_read (previous : Option Kind) (c : Char) (rest : Text) :
    Single previous c rest (read previous c rest) := by
  dsimp only [read]
  refine .ite (fun hc => .whitespace (by simpa using hc)) fun _ => ?_
  refine .ite (fun hc => .closeTag (opens_iff.1 hc).1 (opens_iff.1 hc).2) fun _ => ?_
  refine .ite (fun hc => .attributeSign (opens_iff.1 hc).1 (opens_iff.1 hc).2) fun hattribute => ?_
  rw [opens_iff] at hattribute
  refine .ite (fun hc => ?_) fun hline => ?_
  · rw [Bool.or_eq_true, opens_iff, beq_iff_eq] at hc
    rcases hc with hc | hc
    · exact .hashComment hc fun hnext => hattribute ⟨hc, hnext⟩
    · exact .slashComment hc.1 hc.2
  rw [Bool.or_eq_true, opens_iff, beq_iff_eq, not_or] at hline
  refine .ite (fun hc => .ite (fun _ => ?_) fun _ => ?_) fun hblock => ?_
  · cases Comment.untilClose (rest.drop 2) <;> trivial
  · cases hclose : Comment.untilClose (rest.drop 1) with
    | none => trivial
    | some body => exact .blockComment (opens_iff.1 hc).1 (opens_iff.1 hc).2 hclose
  rw [opens_iff] at hblock
  refine .ite (fun hc => .variableName ?_) fun _ => ?_
  · rw [Bool.and_eq_true, beq_iff_eq] at hc
    exact hc.1
  refine .ite (fun hc => construct_word previous rest hc) fun _ => ?_
  refine .ite (fun hc => .number ?_ (number_kind (c :: rest))) fun _ => ?_
  · rw [Bool.or_eq_true, Bool.and_eq_true, beq_iff_eq] at hc
    exact hc.imp_right And.left
  refine .ite (fun hc => ?_) fun hquote => ?_
  · cases hclose : Literal.quotedTail? c rest with
    | none => trivial
    | some more => exact .quoted hc hclose
  have hoperator : Construct previous c rest (Operator.read c rest).1 (Operator.read c rest).2 := by
    refine construct_operator previous hline.1 (by simpa using hquote) fun hc => ⟨?_, ?_⟩
    · intro hnext
      exact hline.2 ⟨hc, hnext⟩
    · intro hnext
      exact hblock ⟨hc, hnext⟩
  by_cases hc : (c == '<') = true
  · rw [if_pos hc]
    cases hclose : Literal.heredoc? rest with
    | none => exact hoperator
    | some outcome =>
      cases outcome with
      | error fault => trivial
      | ok more => exact .heredoc (beq_iff_eq.1 hc) hclose
  · rw [if_neg hc]
    exact hoperator

/-- Whatever is read as a single lexeme is one of the constructs. -/
theorem construct_of_read (h : read previous c rest = .one k n) :
    Construct previous c rest k n := by
  have hsingle := single_read previous c rest
  rwa [h] at hsingle

/-! ## The lexemes of a scan -/

/-- A lexeme of a scan without a fault stands in front of the lexemes `after`. -/
inductive Occurs : Lexeme → List Lexeme → Prop
  | openTag {c : Char} {rest : Text} {n : Nat} (htag : openTagLength? (c :: rest) = some n)
      (hfault : (ofText .code (some .openTag) (rest.drop (n - 1))).fault = none) :
      Occurs ⟨.openTag, c :: rest.take (n - 1)⟩
        (ofText .code (some .openTag) (rest.drop (n - 1))).lexemes
  | inlineHtml {c : Char} {rest : Text}
      (hfault : (ofText .html (some .inlineHtml) (rest.drop (untilOpenTag rest))).fault = none) :
      Occurs ⟨.inlineHtml, c :: rest.take (untilOpenTag rest)⟩
        (ofText .html (some .inlineHtml) (rest.drop (untilOpenTag rest))).lexemes
  | code {previous : Option Kind} {c : Char} {rest : Text} {k : Kind} {n : Nat}
      (hconstruct : Construct previous c rest k n)
      (hfault : (ofText (if k = .closeTag then .html else .code) (previousAfter previous k)
        (rest.drop n)).fault = none) :
      Occurs ⟨k, c :: rest.take n⟩
        (ofText (if k = .closeTag then .html else .code) (previousAfter previous k)
          (rest.drop n)).lexemes
  | doc {previous : Option Kind} {body t : Text} {front back : List Lexeme} {l : Lexeme}
      (hcloses : Comment.ClosesFirst body) (hpiece : Comment.doc body = front ++ l :: back)
      (hfault : (ofText .code previous t).fault = none) :
      Occurs l (back ++ (ofText .code previous t).lexemes)

/-- A lexeme of a scan without a fault was taken by one step of the scanner, and the lexemes `after` were
taken by the steps behind it. -/
inductive Taken : Lexeme → List Lexeme → Prop
  | openTag {c : Char} {rest : Text} {n : Nat} (htag : openTagLength? (c :: rest) = some n)
      (hfault : (ofText .code (some .openTag) (rest.drop (n - 1))).fault = none) :
      Taken ⟨.openTag, c :: rest.take (n - 1)⟩
        (ofText .code (some .openTag) (rest.drop (n - 1))).lexemes
  | inlineHtml {c : Char} {rest : Text} (htext : openTagLength? (c :: rest) = none)
      (hfault : (ofText .html (some .inlineHtml) (rest.drop (untilOpenTag rest))).fault = none) :
      Taken ⟨.inlineHtml, c :: rest.take (untilOpenTag rest)⟩
        (ofText .html (some .inlineHtml) (rest.drop (untilOpenTag rest))).lexemes
  | code {previous : Option Kind} {c : Char} {rest : Text} {k : Kind} {n : Nat}
      (hread : read previous c rest = .one k n)
      (hfault : (ofText (if k = .closeTag then .html else .code) (previousAfter previous k)
        (rest.drop n)).fault = none) :
      Taken ⟨k, c :: rest.take n⟩
        (ofText (if k = .closeTag then .html else .code) (previousAfter previous k)
          (rest.drop n)).lexemes
  | doc {previous : Option Kind} {body t : Text} {front back : List Lexeme} {l : Lexeme}
      (hcloses : Comment.ClosesFirst body) (hpiece : Comment.doc body = front ++ l :: back)
      (hfault : (ofText .code previous t).fault = none) :
      Taken l (back ++ (ofText .code previous t).lexemes)

/-- A list with one element in front is split at that element or behind it. -/
theorem cons_eq_append_cons {α : Type} {x y : α} {xs before after : List α}
    (h : x :: xs = before ++ y :: after) :
    x = y ∧ xs = after ∨ ∃ before', xs = before' ++ y :: after := by
  cases before with
  | nil => exact .inl ⟨(List.cons.inj h).1, (List.cons.inj h).2⟩
  | cons b before => exact .inr ⟨before, (List.cons.inj h).2⟩

/-- Every lexeme of a scan without a fault was taken in front of those that follow it. -/
theorem taken_ofText {mode : Mode} {previous : Option Kind} {t : Text} {l : Lexeme}
    {before after : List Lexeme} (hfault : (ofText mode previous t).fault = none)
    (h : (ofText mode previous t).lexemes = before ++ l :: after) : Taken l after := by
  fun_induction ofText mode previous t generalizing before with
  | case1 => simp at h
  | case2 previous c rest n htag ih =>
    rcases cons_eq_append_cons h with ⟨rfl, rfl⟩ | ⟨before', h⟩
    · exact .openTag htag hfault
    · exact ih hfault h
  | case3 previous c rest htag ih =>
    rcases cons_eq_append_cons h with ⟨rfl, rfl⟩ | ⟨before', h⟩
    · exact .inlineHtml htag hfault
    · exact ih hfault h
  | case4 previous c rest k n hread ih =>
    rcases cons_eq_append_cons h with ⟨rfl, rfl⟩ | ⟨before', h⟩
    · exact .code hread hfault
    · exact ih hfault h
  | case5 previous c rest body hread ih =>
    have hkeeps := keeps_read previous c rest
    rw [hread] at hkeeps
    have hcloses := Comment.closesFirst_of_untilClose hkeeps.2.2
    -- The lexeme is one of the doc comment's, or stands behind it.
    rw [lexemes_after, List.append_eq_append_iff] at h
    rcases h with ⟨front, rfl, hrest⟩ | ⟨back, hdoc, hafter⟩
    · exact ih hfault hrest
    · cases back with
      | nil =>
        have hrest : _ = [] ++ l :: after := hafter.symm
        exact ih hfault hrest
      | cons d back =>
        obtain ⟨rfl, rfl⟩ := List.cons.inj hafter
        exact .doc hcloses hdoc hfault
  | case6 => simp at hfault

/-- What a step took was read as a construct. -/
theorem Taken.occurs {l : Lexeme} {after : List Lexeme} (h : Taken l after) : Occurs l after := by
  cases h with
  | openTag htag hfault => exact .openTag htag hfault
  | inlineHtml htext hfault => exact .inlineHtml hfault
  | code hread hfault => exact .code (construct_of_read hread) hfault
  | doc hcloses hpiece hfault => exact .doc hcloses hpiece hfault

/-- Every lexeme of a scan without a fault occurs in front of those that follow it. -/
theorem occurs_ofText {mode : Mode} {previous : Option Kind} {t : Text} {l : Lexeme}
    {before after : List Lexeme} (hfault : (ofText mode previous t).fault = none)
    (h : (ofText mode previous t).lexemes = before ++ l :: after) : Occurs l after :=
  (taken_ofText hfault h).occurs

/-! ## What a kind tells of the text -/

/-- The one character of a sign. -/
def sign? : Kind → Option Char
  | .opens .round => some '('
  | .closes .round => some ')'
  | .opens .curly => some '{'
  | .closes .curly => some '}'
  | .opens .square => some '['
  | .closes .square => some ']'
  | .semicolon => some ';'
  | .comma => some ','
  | .assign => some '='
  | .comparison .less => some '<'
  | .comparison .greater => some '>'
  | .backslash => some '\\'
  | _ => none

/-- A single character is a sign of its own kind, or an operator. -/
theorem sign?_of_single (h : Operator.single c = k) : sign? k = some c ∨ k = .operator := by
  subst h
  unfold Operator.single
  split <;> simp [sign?]

/-- No operator of several characters has the kind of a sign. -/
theorem sign?_of_longer {spelling : Text} (h : (spelling, k) ∈ Operator.longer) :
    sign? k = none := by
  have htable : ∀ entry ∈ Operator.longer, sign? entry.2 = none := by decide
  exact htable _ h

/-- A sign is read as its character. -/
theorem Construct.sign {d : Char} (h : Construct previous c rest k n) (hk : sign? k = some d) :
    c = d ∧ n = 0 := by
  cases h with
  | single hsingle =>
    rcases sign?_of_single hsingle with hsign | rfl
    · exact ⟨Option.some.inj (hsign.symm.trans hk), rfl⟩
    · cases hk
  | longer hentry =>
    rw [sign?_of_longer hentry] at hk
    cases hk
  | number _ hnumber => rcases hnumber with rfl | rfl <;> cases hk
  | _ => cases hk

/-- A keyword is read in its letters. -/
theorem Construct.keyword_spelling {w : Keyword} (h : Construct previous c rest (.keyword w) n) :
    Text.foldCase (c :: rest.take n) = w.spelling := by
  cases h with
  | keyword hc hspelling =>
    rw [hspelling, ← List.prefix_iff_eq_take.1 (List.takeWhile_prefix isNameChar)]
  | single hsingle => rcases sign?_of_single hsingle with h | h <;> cases h
  | longer hentry => simp [Operator.longer] at hentry
  | number _ hnumber => rcases hnumber with h | h <;> cases h

/-- The lexemes of a doc comment have its kinds. -/
theorem isDocComment_of_mem_doc {body : Text} {l : Lexeme} (h : l ∈ Comment.doc body) :
    l.kind.isDocComment = true := by
  have hbody (content : Bool) (t : Text) :
      ∀ l ∈ Comment.docBody content t, l.kind.isDocComment = true := by
    fun_induction Comment.docBody content t with
    | case1 => simp
    | case2 | case3 | case4 | case5 | case6 | case7 =>
      rename_i ih
      simpa [Kind.isDocComment] using ih
  rcases Comment.mem_doc_iff.1 h with rfl | h | rfl
  · rfl
  · exact hbody _ _ l h
  · rfl

/-- A lexeme that is no part of a doc comment, an open tag or text was read as a construct. -/
theorem Occurs.exists_construct {l : Lexeme} {after : List Lexeme} (h : Occurs l after)
    (htag : l.kind ≠ .openTag) (hhtml : l.kind ≠ .inlineHtml) (hdoc : l.kind.isDocComment = false) :
    ∃ previous c rest n, Construct previous c rest l.kind n ∧ l.text = c :: rest.take n ∧
      rest.drop n = Lexeme.spell after ∧
      after = (ofText (if l.kind = .closeTag then .html else .code)
        (previousAfter previous l.kind) (Lexeme.spell after)).lexemes := by
  cases h with
  | openTag => exact absurd rfl htag
  | inlineHtml => exact absurd rfl hhtml
  | code hconstruct hfault =>
    rw [(reads_ofText hfault).spell_eq]
    exact ⟨_, _, _, _, hconstruct, rfl, rfl, rfl⟩
  | doc hcloses hpiece hfault =>
    rw [isDocComment_of_mem_doc (by rw [hpiece]; simp)] at hdoc
    cases hdoc

/-- A keyword is written in its letters, and the scan goes on behind it. -/
theorem Occurs.keyword {w : Keyword} {l : Lexeme} {after : List Lexeme} (h : Occurs l after)
    (hk : l.kind = .keyword w) :
    Text.foldCase l.text = w.spelling ∧
      after = (ofText .code (some (.keyword w)) (Lexeme.spell after)).lexemes := by
  obtain ⟨previous, c, rest, n, hconstruct, htext, -, hafter⟩ :=
    h.exists_construct (by simp [hk]) (by simp [hk]) (by rw [hk]; rfl)
  rw [hk] at hconstruct hafter
  rw [htext]
  exact ⟨hconstruct.keyword_spelling, hafter⟩

/-- A sign is one character. -/
theorem Occurs.sign {l : Lexeme} {after : List Lexeme} {d : Char} (h : Occurs l after)
    (hk : sign? l.kind = some d) : l.text = [d] := by
  have hcode {k : Kind} (hk : sign? k = some d) :
      k ≠ .openTag ∧ k ≠ .inlineHtml ∧ k.isDocComment = false := by
    unfold sign? at hk
    split at hk <;> simp_all [Kind.isDocComment]
  obtain ⟨htag, hhtml, hdoc⟩ := hcode hk
  obtain ⟨previous, c, rest, n, hconstruct, htext, -⟩ := h.exists_construct htag hhtml hdoc
  obtain ⟨rfl, rfl⟩ := hconstruct.sign hk
  exact htext

end Scan

namespace TokenStream

/-- Every stream of a source is laid out over it, and each lexeme was taken before the next ones. -/
theorem exists_taken {source : Text} {s : TokenStream} (h : ofSource source = .ok s) :
    ∃ ls, LaidOut source s ls ∧ ∀ i l, ls[i]? = some l → Scan.Taken l (ls.drop (i + 1)) := by
  obtain ⟨hfault, htokens⟩ := scan_of_ofSource h
  refine ⟨_, ⟨Scan.reads_ofText hfault, htokens⟩, ?_⟩
  intro i l hl
  obtain ⟨hi, rfl⟩ := List.getElem?_eq_some_iff.1 hl
  apply Scan.taken_ofText hfault
  rw [List.getElem_cons_drop, List.take_append_drop]

/-- Every stream of a source is laid out over it, and each lexeme occurs before the next ones. -/
theorem exists_occurs {source : Text} {s : TokenStream} (h : ofSource source = .ok s) :
    ∃ ls, LaidOut source s ls ∧ ∀ i l, ls[i]? = some l → Scan.Occurs l (ls.drop (i + 1)) := by
  obtain ⟨ls, hlaid, htaken⟩ := exists_taken h
  exact ⟨ls, hlaid, fun i l hl => (htaken i l hl).occurs⟩

end TokenStream

end PhpLint

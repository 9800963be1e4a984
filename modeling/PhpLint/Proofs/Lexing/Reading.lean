import Mathlib.Data.List.Infix
import PhpLint.Lexeme.Scan
import PhpLint.Proofs.Text.Letters

/-!
# How a scan reads a source

A scan without a fault is a derivation: the source is cut into constructs, one after another, and
each is either a single lexeme that is no part of a doc comment or a whole doc comment, whose body
ends at the first star and slash.  `Scan.Reads` is that derivation, without the modes, the
look-ahead and the memory of the last token that the scanner needs to find the cuts.

`reads_ofText` is the one induction over the scanner.  What holds of every source is an induction
over the derivation instead, such as `Reads.spell_eq` (the lexemes spell the source) and
`Reads.text_ne_nil` (no lexeme is empty).
-/

namespace PhpLint

namespace Text

/-- What is left when the end is trimmed stands in front. -/
theorem trimEndOf_isPrefix (p : Char → Bool) (t : Text) : trimEndOf p t <+: t := by
  have h := List.reverse_prefix.2 (List.dropWhile_suffix p (l := t.reverse))
  simpa [trimEndOf] using h

end Text

namespace Comment

/-- The first star and slash behind a body are the ones that close it. -/
def ClosesFirst (body : Text) : Prop :=
  ∀ before after, body ++ ['*', '/'] = before ++ ['*', '/'] ++ after → after = []

/-- The source text of a doc comment. -/
def docSource (body : Text) : Text := ['/', '*', '*'] ++ body ++ ['*', '/']

/-- The search for the end of a comment stops at the first star and slash. -/
theorem closesFirst_of_untilClose {t body : Text} (h : untilClose t = some body) :
    ClosesFirst body := by
  induction t generalizing body with
  | nil => simp [untilClose] at h
  | cons c rest ih =>
    rw [untilClose] at h
    split at h
    · obtain rfl := Option.some.inj h
      intro before after heq
      have hlength := congrArg List.length heq
      simp at hlength
      exact List.length_eq_zero_iff.1 (by omega)
    · next hopen =>
      obtain ⟨inner, hinner, rfl⟩ := Option.map_eq_some_iff.1 h
      intro before after heq
      cases before with
      | nil =>
        -- A close at the very front would have stopped the search before.
        obtain ⟨tail, rfl⟩ := untilClose_eq_append hinner
        obtain ⟨rfl, hnext⟩ := List.cons.inj heq
        cases inner <;> simp_all
      | cons d before => exact ih hinner before after (List.cons.inj heq).2

/-- What a text of a doc comment takes stands in front. -/
theorem docTextTail_isPrefix (c : Char) (rest : Text) : docTextTail c rest <+: rest := by
  have h := Text.trimEndOf_isPrefix isBlank (c :: rest.takeWhile isLineChar)
  exact (h.drop 1).trans (List.takeWhile_prefix isLineChar)

/-- The lexemes of a body spell the body. -/
theorem spell_docBody (content : Bool) (t : Text) : Lexeme.spell (docBody content t) = t := by
  fun_induction docBody content t with
  | case1 => rfl
  | case2 content rest ih => simp [ih]
  | case3 content c rest _ hreturn ih =>
    rw [Lexeme.spell_cons, ih]
    exact congrArg (c :: ·) (List.take_append_drop 1 rest)
  | case4 content c rest _ _ hgap tail ih =>
    simpa [ih] using (List.prefix_append_drop (List.takeWhile_prefix isGap)).symm
  | case5 content c rest _ _ _ hstar ih => simp [ih]
  | case6 content c rest _ _ _ _ htag tail ih =>
    simpa [ih] using
      (List.prefix_append_drop (List.takeWhile_prefix fun d => !Unicode.isSpace d)).symm
  | case7 content c rest _ _ _ _ _ tail ih =>
    simpa [ih] using (List.prefix_append_drop (docTextTail_isPrefix c rest)).symm

/-- The lexemes of a doc comment spell its source. -/
theorem spell_doc (body : Text) : Lexeme.spell (doc body) = docSource body := by
  simp [doc, docSource, spell_docBody]

/-- A doc comment consists of its opener, its body and its closer. -/
theorem mem_doc_iff {body : Text} {l : Lexeme} :
    l ∈ doc body ↔ l = ⟨.opens .docComment, ['/', '*', '*']⟩ ∨ l ∈ docBody false body ∨
      l = ⟨.closes .docComment, ['*', '/']⟩ := by
  simp [doc]

/-- No lexeme of a doc comment is empty. -/
theorem text_ne_nil_of_mem_doc {body : Text} {l : Lexeme} (h : l ∈ doc body) : l.text ≠ [] := by
  have hbody (content : Bool) (t : Text) : ∀ l ∈ docBody content t, l.text ≠ [] := by
    fun_induction docBody content t with
    | case1 => simp
    | case2 | case3 | case4 | case5 | case6 | case7 =>
      rename_i ih
      simpa using ih
  rcases mem_doc_iff.1 h with rfl | h | rfl
  · simp
  · exact hbody _ _ l h
  · simp

end Comment

namespace Scan

@[simp] theorem lexemes_after (ls : List Lexeme) (s : Scan) :
    (s.after ls).lexemes = ls ++ s.lexemes := rfl

@[simp] theorem fault_after (ls : List Lexeme) (s : Scan) : (s.after ls).fault = s.fault := rfl

/-! ## One step of the scan -/

theorem openTagLength?_pos {t : Text} {n : Nat} (h : openTagLength? t = some n) : 0 < n := by
  unfold openTagLength? at h
  grind

/-- An open tag starts with a less-than sign. -/
theorem openTagLength?_of_ne {c : Char} (hc : c ≠ '<') (t : Text) :
    openTagLength? (c :: t) = none := by
  have hlower : c.toLower ≠ '<' := by
    have hsame := congrFun (comp_toLower (f := (· == '<')) (by decide)) c
    simpa [hc] using hsame
  have hecho : Text.startsWith ['<', '?', '='] (c :: t) = false := by
    rw [Text.startsWith, Text.stripStart, if_neg hc.symm]
    rfl
  have hword : Text.foldCase ((c :: t).take 5) ≠ "<?php".toList := fun h =>
    hlower (List.cons.inj h).1
  unfold openTagLength?
  rw [hecho, if_neg Bool.false_ne_true, if_neg hword]

/-- One step outside of code, at an open tag. -/
theorem ofText_tag {previous : Option Kind} {c : Char} {rest : Text} {n : Nat}
    (h : openTagLength? (c :: rest) = some n) :
    ofText .html previous (c :: rest) =
      (ofText .code (some .openTag) (rest.drop (n - 1))).after
        [⟨.openTag, c :: rest.take (n - 1)⟩] := by
  rw [ofText, h]

/-- One step outside of code, up to the next open tag. -/
theorem ofText_html {previous : Option Kind} {c : Char} {rest : Text}
    (h : openTagLength? (c :: rest) = none) :
    ofText .html previous (c :: rest) =
      (ofText .html (some .inlineHtml) (rest.drop (untilOpenTag rest))).after
        [⟨.inlineHtml, c :: rest.take (untilOpenTag rest)⟩] := by
  rw [ofText, h]

/-- One step in code, at a single lexeme. -/
theorem ofText_one {previous : Option Kind} {c : Char} {rest : Text} {k : Kind} {n : Nat}
    (h : read previous c rest = .one k n) :
    ofText .code previous (c :: rest) =
      (ofText (if k = .closeTag then .html else .code) (previousAfter previous k)
        (rest.drop n)).after [⟨k, c :: rest.take n⟩] := by
  rw [ofText, h]

/-- One step in code, at a doc comment. -/
theorem ofText_doc {previous : Option Kind} {c : Char} {rest body : Text}
    (h : read previous c rest = .docComment body) :
    ofText .code previous (c :: rest) =
      (ofText .code previous (rest.drop (body.length + 4))).after (Comment.doc body) := by
  rw [ofText, h]

/-- Outside of code nothing depends on what stands before. -/
theorem ofText_html_previous (p q : Option Kind) (t : Text) : ofText .html p t = ofText .html q t := by
  cases t with
  | nil => rw [ofText, ofText]
  | cons c t => rw [ofText, ofText]

/-- Where the search for an open tag stops, one stands, or the text ends. -/
theorem untilOpenTag_drop (t : Text) : untilOpenTag (t.drop (untilOpenTag t)) = 0 := by
  induction t with
  | nil => rfl
  | cons c t ih =>
    by_cases h : (openTagLength? (c :: t)).isSome = true
    · rw [untilOpenTag, if_pos h, List.drop_zero, untilOpenTag, if_pos h]
    · rw [untilOpenTag, if_neg h, List.drop_succ_cons, ih]

/-- Text that starts with no open tag goes up to the next one. -/
theorem ofText_text {t : Text} (h : untilOpenTag t ≠ 0) (previous : Option Kind) :
    ofText .html previous t =
      (ofText .html (some .inlineHtml) (t.drop (untilOpenTag t))).after
        [⟨.inlineHtml, t.take (untilOpenTag t)⟩] := by
  cases t with
  | nil => exact absurd rfl h
  | cons c t =>
    have hnone : ¬(openTagLength? (c :: t)).isSome = true := fun hsome =>
      h (by simp [untilOpenTag, hsome])
    have huntil : untilOpenTag (c :: t) = untilOpenTag t + 1 := by
      rw [untilOpenTag, if_neg hnone]
    rw [ofText_html (by simpa using hnone), huntil, List.drop_succ_cons, List.take_succ_cons]

/-- Where the search for an open tag stops at once, a tag is read, or nothing. -/
theorem openTag_of_mem_head? {t : Text} (h : untilOpenTag t = 0) (previous : Option Kind) :
    ∀ l ∈ (ofText .html previous t).lexemes.head?, l.kind = .openTag := by
  cases t with
  | nil =>
    intro l hl
    rw [ofText] at hl
    cases hl
  | cons c t =>
    intro l hl
    cases htag : openTagLength? (c :: t) with
    | none => simp [untilOpenTag, htag] at h
    | some n =>
      rw [ofText_tag htag] at hl
      obtain rfl := Option.some.inj hl
      rfl

/-! ## What one reading can be -/

theorem not_isDocComment_of_word (previous : Option Kind) (c : Char) (rest : Text) :
    (Word.read previous c rest).1.isDocComment = false := by
  unfold Word.read Word.kind
  grind [Kind.isDocComment]

theorem not_isDocComment_of_number (t : Text) : (Number.read t).1.isDocComment = false := by
  unfold Number.read
  grind [Kind.isDocComment]

/-- An operator is no part of a doc comment. -/
theorem not_isDocComment_of_operator (c : Char) (rest : Text) :
    (Operator.read c rest).1.isDocComment = false := by
  have htable : ∀ entry ∈ Operator.longer, entry.2.isDocComment = false := by decide
  have hsingle : (Operator.single c).isDocComment = false := by
    unfold Operator.single
    split <;> rfl
  unfold Operator.read
  split
  · next hfound => exact htable _ (List.mem_of_find?_eq_some hfound)
  · exact hsingle

/-- What a reading promises: a single lexeme is no part of a doc comment, and a doc comment stands
where a slash, two stars and white space do and goes up to the first close. -/
def Keeps (c : Char) (rest : Text) : Reading → Prop
  | .one kind _ => kind.isDocComment = false
  | .docComment body =>
    c = '/' ∧ Comment.opensDoc rest = true ∧ Comment.untilClose (rest.drop 2) = some body
  | .fault _ => True

/-- A guard keeps the promise when both of its branches do. -/
theorem Keeps.ite {c : Char} {rest : Text} {p : Prop} [Decidable p] {r r' : Reading}
    (hpos : p → Keeps c rest r) (hneg : ¬p → Keeps c rest r') :
    Keeps c rest (if p then r else r') := by
  by_cases h : p
  · rw [if_pos h]
    exact hpos h
  · rw [if_neg h]
    exact hneg h

/-- Whatever stands at the front of the code, the reading of it keeps its promise. -/
theorem keeps_read (previous : Option Kind) (c : Char) (rest : Text) :
    Keeps c rest (read previous c rest) := by
  dsimp only [read]
  refine .ite (fun _ => rfl) fun _ => ?_
  refine .ite (fun _ => rfl) fun _ => ?_
  refine .ite (fun _ => rfl) fun _ => ?_
  refine .ite (fun _ => rfl) fun _ => ?_
  refine .ite (fun hslash => .ite (fun hopens => ?_) fun _ => ?_) fun _ => ?_
  · cases hclose : Comment.untilClose (rest.drop 2) with
    | none => trivial
    | some body =>
      simp only [Bool.and_eq_true, beq_iff_eq] at hslash
      exact ⟨hslash.1, hopens, hclose⟩
  · cases Comment.untilClose (rest.drop 1) <;> trivial
  refine .ite (fun _ => rfl) fun _ => ?_
  refine .ite (fun _ => not_isDocComment_of_word previous c rest) fun _ => ?_
  refine .ite (fun _ => not_isDocComment_of_number (c :: rest)) fun _ => ?_
  refine .ite (fun _ => ?_) fun _ => ?_
  · cases Literal.quotedTail? c rest <;> trivial
  · split
    · rfl
    · trivial
    · exact not_isDocComment_of_operator c rest

/-! ## The derivation -/

/-- A source is read as lexemes: construct after construct, each a single lexeme that is no part of
a doc comment, or a whole doc comment up to its first close. -/
inductive Reads : Text → List Lexeme → Prop
  | nil : Reads [] []
  | one {kind : Kind} {c : Char} {more rest : Text} {ls : List Lexeme}
      (hkind : kind.isDocComment = false) (hrest : Reads rest ls) :
      Reads (c :: more ++ rest) (⟨kind, c :: more⟩ :: ls)
  | doc {body rest : Text} {ls : List Lexeme}
      (hcloses : Comment.ClosesFirst body) (hrest : Reads rest ls) :
      Reads (Comment.docSource body ++ rest) (Comment.doc body ++ ls)

/-- One lexeme of some length in front of a reading of what it leaves. -/
theorem Reads.one_take {kind : Kind} {c : Char} {rest : Text} {n : Nat} {ls : List Lexeme}
    (hkind : kind.isDocComment = false) (hrest : Reads (rest.drop n) ls) :
    Reads (c :: rest) (⟨kind, c :: rest.take n⟩ :: ls) := by
  have h : Reads (c :: rest.take n ++ rest.drop n) (⟨kind, c :: rest.take n⟩ :: ls) :=
    .one hkind hrest
  simpa using h

/-- A scan that meets no fault reads its text. -/
theorem reads_ofText {mode : Mode} {previous : Option Kind} {t : Text}
    (h : (ofText mode previous t).fault = none) : Reads t (ofText mode previous t).lexemes := by
  fun_induction ofText mode previous t with
  | case1 => exact .nil
  | case2 previous c rest length hlength ih => exact .one_take rfl (ih h)
  | case3 previous c rest hlength ih => exact .one_take rfl (ih h)
  | case4 previous c rest kind more hread ih =>
    have hkeeps := keeps_read previous c rest
    rw [hread] at hkeeps
    exact .one_take hkeeps (ih h)
  | case5 previous c rest body hread ih =>
    -- The scan takes the opener's three characters, the body and the closer's two.
    have hkeeps := keeps_read previous c rest
    rw [hread] at hkeeps
    obtain ⟨rfl, hopens, hclose⟩ := hkeeps
    obtain ⟨after, hafter⟩ := Comment.untilClose_eq_append hclose
    have hrest : rest = ['*', '*'] ++ rest.drop 2 := by
      unfold Comment.opensDoc at hopens
      split at hopens
      · rfl
      · cases hopens
    have hleft : rest.drop (body.length + 4) = after := by
      rw [hrest, hafter]
      simp
    have hdoc := Reads.doc (Comment.closesFirst_of_untilClose hclose) (hleft ▸ ih h)
    rw [hrest, hafter]
    simpa [Comment.docSource] using hdoc
  | case6 previous c rest fault hread => cases h

variable {t : Text} {ls : List Lexeme}

/-- **Lossless reading.**  The lexemes of a source spell the source. -/
theorem Reads.spell_eq (h : Reads t ls) : Lexeme.spell ls = t := by
  induction h with
  | nil => rfl
  | one hkind hrest ih => simp [ih]
  | doc hcloses hrest ih => simp [ih, Comment.spell_doc]

/-- No lexeme of a reading is empty. -/
theorem Reads.text_ne_nil (h : Reads t ls) : ∀ l ∈ ls, l.text ≠ [] := by
  induction h with
  | nil => simp
  | one hkind hrest ih =>
    intro l hl
    rcases List.mem_cons.1 hl with rfl | hl
    · simp
    · exact ih l hl
  | doc hcloses hrest ih =>
    intro l hl
    rcases List.mem_append.1 hl with hl | hl
    · exact Comment.text_ne_nil_of_mem_doc hl
    · exact ih l hl

end Scan

end PhpLint

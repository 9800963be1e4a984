import PhpLint.Proofs.Lexing.DocComment
import PhpLint.Proofs.LineEnds.Reading

/-!
# Lexemes side by side

Lexemes of the two forms of a source stand side by side when they are alike and the texts before them are
the two forms of one text, but for white space in a doc comment, where a return before a line end belongs
to the blanks in front of it.  Only behind a closing tag that takes a line feed may the form with returns
have one lexeme more: the text of the line end that the tag leaves.

The lexemes of a doc comment stand side by side with those of its other form (`along_doc`).
-/

namespace PhpLint

open Text (withReturns SameCut)

namespace Scan

/-! ## Lexemes side by side -/

/-- Lexemes at one place of the two forms, `u` and `u'` the texts before them. -/
structure Like (u u' : Text) (l l' : Lexeme) : Prop where
  kind : l'.kind = l.kind
  start : l.kind ≠ .inlineHtml →
    u' = withReturns u ∨ l.kind = .docSpace ∧ u' = withReturns u ++ ['\r']
  text : l.kind ≠ .inlineHtml → Text.SameWord l.text l'.text
  plain : l.kind.mayBreak = false → l'.text = l.text
  suits : Suits l.kind l.text

/-- Lexemes in a row behind the texts `u` and `u'`, those of one form along those of the other. -/
inductive Along : Text → Text → List Lexeme → List Lexeme → Prop
  | nil (u : Text) : Along u (withReturns u) [] []
  | both {u u' : Text} {l l' : Lexeme} {ls ls' : List Lexeme} (hlike : Like u u' l l')
      (hrest : Along (u ++ l.text) (u' ++ l'.text) ls ls') : Along u u' (l :: ls) (l' :: ls')
  /-- The line end that a closing tag leaves. -/
  | left {u u' : Text} {l l' lineEnd : Lexeme} {ls ls' : List Lexeme} (hlike : Like u u' l l')
      (hclose : l.kind = .closeTag) (hhtml : lineEnd.kind = .inlineHtml)
      (hnext : ∀ next ∈ ls.head?, next.kind = .openTag)
      (hrest : Along (u ++ l.text) (u' ++ (l'.text ++ lineEnd.text)) ls ls') :
      Along u u' (l :: ls) (l' :: lineEnd :: ls')

/-- Only behind a closing tag is there a line end left. -/
theorem Along.tail {u u' : Text} {l l' : Lexeme} {ls ls' : List Lexeme}
    (h : Along u u' (l :: ls) (l' :: ls')) (hkind : l.kind ≠ .closeTag) :
    Along (u ++ l.text) (u' ++ l'.text) ls ls' := by
  cases h with
  | both hlike hrest => exact hrest
  | left hlike hclose => exact absurd hclose hkind

/-- The two forms of a lexeme's text behind the two forms of a text. -/
theorem like_withReturns {k : Kind} (u : Text) {t : Text} (h : Suits k t) :
    Like u (withReturns u) ⟨k, t⟩ ⟨k, withReturns t⟩ where
  kind := rfl
  start _ := .inl rfl
  text _ := by
    by_cases hfeed : '\n' ∈ t
    · exact .inr ⟨Text.isNoWord_of_feed hfeed, Text.isNoWord_of_feed (Text.feed_mem_withReturns hfeed)⟩
    · exact .inl (Text.withReturns_of_not_mem hfeed)
  plain hk := Text.withReturns_of_not_mem (h.plain hk)
  suits := h

/-- A lexeme and its other form go in front, side by side. -/
theorem Along.both_withReturns {k : Kind} {u t : Text} {ls ls' : List Lexeme} (h : Suits k t)
    (hrest : Along (u ++ t) (withReturns (u ++ t)) ls ls') :
    Along u (withReturns u) (⟨k, t⟩ :: ls) (⟨k, withReturns t⟩ :: ls') := by
  rw [Text.withReturns_append] at hrest
  exact .both (like_withReturns u h) hrest

/-- A lexeme without line feeds. -/
theorem Along.both_of_not_mem {k : Kind} {u t : Text} {ls ls' : List Lexeme} (h : '\n' ∉ t)
    (hword : k ≠ .identifier) (hclose : k ≠ .closeTag)
    (hrest : Along (u ++ t) (withReturns (u ++ t)) ls ls') :
    Along u (withReturns u) (⟨k, t⟩ :: ls) (⟨k, t⟩ :: ls') := by
  have hboth := Along.both_withReturns (.of_not_mem h hword hclose) hrest
  rwa [Text.withReturns_of_not_mem h] at hboth

/-! ## Doc comments -/

section DocBody

open Comment

variable {content : Bool} {u t : Text} {ls ls' : List Lexeme}

/-- A line feed is a space of its own, and a new line starts behind it. -/
theorem docBody_feed (content : Bool) (t : Text) :
    docBody content ('\n' :: t) = ⟨.docSpace, ['\n']⟩ :: docBody false t := by
  rw [docBody, if_pos rfl]

/-- A return and a line feed are one space. -/
theorem docBody_returnFeed (content : Bool) (t : Text) :
    docBody content ('\r' :: '\n' :: t) = ⟨.docSpace, ['\r', '\n']⟩ :: docBody false t := by
  rw [docBody]
  rfl

/-- Spaces of a doc comment are alike when they hold the same line ends. -/
theorem like_docSpace {u u' t t' : Text}
    (hstart : u' = withReturns u ∨ u' = withReturns u ++ ['\r'])
    (htext : Text.SameWord t t') :
    Like u u' ⟨.docSpace, t⟩ ⟨.docSpace, t'⟩ where
  kind := rfl
  start _ := hstart.imp_right fun h => ⟨rfl, h⟩
  text _ := htext
  plain h := by cases h
  suits := .of_mayBreak rfl fun h => by cases h

/-- A return before a line end belongs to the blanks in front of it, if there are any. -/
theorem Along.blanks {blanks : Text} (hblanks : '\n' ∉ blanks)
    (hspace : Text.isNoWord blanks = true)
    (hrest : Along (u ++ blanks) (withReturns (u ++ blanks)) (⟨.docSpace, ['\n']⟩ :: ls)
      (⟨.docSpace, ['\r', '\n']⟩ :: ls')) :
    Along u (withReturns u) (⟨.docSpace, blanks⟩ :: ⟨.docSpace, ['\n']⟩ :: ls)
      (⟨.docSpace, blanks ++ ['\r']⟩ :: ⟨.docSpace, ['\n']⟩ :: ls') := by
  have hbefore : withReturns u ++ (blanks ++ ['\r']) = withReturns (u ++ blanks) ++ ['\r'] := by
    rw [Text.withReturns_append, Text.withReturns_of_not_mem hblanks, List.append_assoc]
  have hspace' : Text.isNoWord (blanks ++ ['\r']) = true := by
    rw [Text.isNoWord_append, hspace, Bool.true_or]
  refine .both (like_docSpace (.inl rfl) (.inr ⟨hspace, hspace'⟩)) ?_
  rw [hbefore]
  refine .both (like_docSpace (.inr rfl) (.inl rfl)) ?_
  simpa using hrest.tail (by decide)

/-- Blanks in a doc comment are one space with the blanks behind them. -/
theorem docBody_gap {c : Char} {blanks : Text} (content : Bool) (hfeed : c ≠ '\n')
    (hreturn : c ≠ '\r') (hc : isGap c = true) (hblanks : ∀ d ∈ blanks, isGap d = true) (t : Text) :
    docBody content (c :: (blanks ++ t)) =
      ⟨.docSpace, c :: (blanks ++ t.takeWhile isGap)⟩ ::
        docBody content (t.drop (t.takeWhile isGap).length) := by
  rw [docBody, if_neg hfeed, if_neg (by simp [hreturn]), if_pos hc]
  dsimp only
  rw [List.takeWhile_append_of_pos hblanks, List.length_append, ← List.drop_drop, List.drop_left]

/-- White space in a doc comment up to what is none. -/
theorem along_gap {content : Bool} {c : Char} {tail after : Text} (hfeed : c ≠ '\n') (hreturn : c ≠ '\r')
    (hc : isGap c = true) (htail : ∀ d ∈ tail, isGap d = true)
    (hstop : ∀ d ∈ after.head?, isGap d = false)
    (hnext : Along (u ++ c :: tail) (withReturns (u ++ c :: tail)) (docBody content after ++ ls)
      (docBody content (withReturns after) ++ ls')) :
    Along u (withReturns u) (⟨.docSpace, c :: tail⟩ :: docBody content after ++ ls)
      (docBody content (withReturns (c :: (tail ++ after))) ++ ls') := by
  have hfree : '\n' ∉ tail := fun h => by
    have hgap := htail _ h
    cases hgap
  have hfree' : '\n' ∉ c :: tail := by
    rw [List.mem_cons, not_or]
    exact ⟨Ne.symm hfeed, hfree⟩
  have hspace : Text.isNoWord (c :: tail) = true := by
    have hblank : isBlank c = true := by simpa [isGap, hreturn] using hc
    simp [Text.isNoWord, isOutsideWords, hblank]
  rw [Text.withReturns_cons hfeed, Text.withReturns_append,
    Text.withReturns_of_not_mem hfree, docBody_gap content hfeed hreturn hc htail]
  cases after with
  | nil => simpa using Along.both_of_not_mem hfree' (by decide) (by decide) hnext
  | cons d after =>
    have hd : isGap d = false := hstop d rfl
    by_cases hline : d = '\n'
    · subst hline
      have hreturn' (t : Text) : ('\r' :: '\n' :: t).takeWhile isGap = ['\r'] := rfl
      rw [Text.withReturns_feed, docBody_feed, docBody_returnFeed] at hnext
      rw [Text.withReturns_feed, hreturn', List.length_singleton, List.drop_succ_cons,
        List.drop_zero, docBody_feed, docBody_feed]
      exact Along.blanks hfree' hspace hnext
    · rw [Text.withReturns_cons hline] at hnext ⊢
      rw [List.takeWhile_cons_of_neg (by simp [hd]), List.append_nil]
      exact Along.both_of_not_mem hfree' (by decide) (by decide) hnext

/-- A tag or a text of a doc comment, which stays on its line, and the comment behind it. -/
theorem along_piece {k : Kind} {content : Bool} {c : Char} {tail rest : Text}
    (hword : k ≠ .identifier) (hclose : k ≠ .closeTag) (hc : c ≠ '\n') (hfree : '\n' ∉ tail)
    (hfront : tail <+: rest) (hreturn : '\r' ∉ rest)
    (hbehind : ∀ u, '\r' ∉ rest.drop tail.length →
      Along (u ++ rest.drop tail.length) (withReturns (u ++ rest.drop tail.length)) ls ls' →
        Along u (withReturns u) (docBody content (rest.drop tail.length) ++ ls)
          (docBody content (withReturns (rest.drop tail.length)) ++ ls'))
    (hrest : Along (u ++ c :: rest) (withReturns (u ++ c :: rest)) ls ls') :
    Along u (withReturns u) (⟨k, c :: tail⟩ :: docBody content (rest.drop tail.length) ++ ls)
      (⟨k, c :: tail⟩ :: docBody content ((withReturns rest).drop tail.length) ++ ls') := by
  have hcut : SameCut rest tail.length tail.length := by
    refine .of_not_mem ?_
    rwa [← List.prefix_iff_eq_take.1 hfront]
  have hfree' : '\n' ∉ c :: tail := by
    rw [List.mem_cons, not_or]
    exact ⟨Ne.symm hc, hfree⟩
  have hsplit : c :: tail ++ rest.drop tail.length = c :: rest :=
    congrArg (c :: ·) (List.prefix_append_drop hfront).symm
  rw [hcut.drop]
  refine .both_of_not_mem hfree' hword hclose (hbehind _ ?_ ?_)
  · exact fun h => hreturn (List.mem_of_mem_drop h)
  · rwa [List.append_assoc, hsplit]

/-- The body of a doc comment stands along its other form. -/
theorem along_docBody_of_plain (content : Bool) (t : Text) :
    ∀ u, '\r' ∉ t → Along (u ++ t) (withReturns (u ++ t)) ls ls' →
      Along u (withReturns u) (docBody content t ++ ls)
        (docBody content (withReturns t) ++ ls') := by
  fun_induction docBody content t with
  | case1 =>
    intro u _ hrest
    simpa [docBody] using hrest
  | case2 content rest ih =>
    intro u hreturn hrest
    rw [List.mem_cons, not_or] at hreturn
    rw [Text.withReturns_feed, docBody_returnFeed]
    refine .both_withReturns (t := ['\n']) (.of_mayBreak rfl (by decide)) ?_
    exact ih _ hreturn.2 (by simpa using hrest)
  | case3 content c rest hc hend ih =>
    -- The first character would be a return.
    intro u hreturn hrest
    simp only [Bool.and_eq_true, decide_eq_true_eq] at hend
    exact absurd (hend.1 ▸ List.mem_cons_self) hreturn
  | case4 content c rest hc hend hgap tail ih =>
    intro u hreturn hrest
    have hafter : rest = tail ++ rest.dropWhile isGap := List.takeWhile_append_dropWhile.symm
    have hstop := List.head?_dropWhile_not isGap rest
    generalize rest.dropWhile isGap = after at hafter hstop
    have hdrop : rest.drop tail.length = after := by
      rw [hafter, List.drop_left]
    have hstop' : ∀ d ∈ after.head?, isGap d = false := by
      intro d hd
      rw [Option.mem_def.1 hd] at hstop
      exact hstop
    have hplain : '\r' ∉ after := fun h => hreturn (by simp [hafter, h])
    have hc' : c ≠ '\r' := by
      rintro rfl
      exact hreturn List.mem_cons_self
    rw [hdrop] at ih ⊢
    have hnext := ih (u ++ c :: tail) hplain (by simpa [hafter] using hrest)
    have hwhole : c :: rest = c :: (tail ++ after) := congrArg (c :: ·) hafter
    rw [hwhole]
    exact along_gap hc hc' hgap (List.all_eq_true.1 List.all_takeWhile) hstop' hnext
  | case5 content c rest hc hend hgap hstar ih =>
    intro u hreturn hrest
    rw [List.mem_cons, not_or] at hreturn
    rw [Text.withReturns_cons hc, docBody, if_neg hc, if_neg, if_neg hgap, if_pos hstar]
    · refine .both_of_not_mem (by simpa using Ne.symm hc) (by decide) (by decide) ?_
      exact ih _ hreturn.2 (by simpa using hrest)
    · simp [Ne.symm hreturn.1]
  | case6 content c rest hc hend hgap hstar htag tail ih =>
    intro u hreturn hrest
    rw [List.mem_cons, not_or] at hreturn
    have hsame : (withReturns rest).takeWhile (fun d => !Unicode.isSpace d) = tail :=
      Text.takeWhile_withReturns (by decide) (by decide) rest
    rw [Text.withReturns_cons hc, docBody, if_neg hc, if_neg (by simp [Ne.symm hreturn.1]),
      if_neg hgap, if_neg hstar, if_pos htag]
    dsimp only
    rw [hsame]
    exact along_piece (by decide) (by decide) hc (Text.notMem_takeWhile (by decide) rest)
      (List.takeWhile_prefix _) hreturn.2 ih hrest
  | case7 content c rest hc hend hgap hstar htag tail ih =>
    intro u hreturn hrest
    rw [List.mem_cons, not_or] at hreturn
    have hline : (withReturns rest).takeWhile isLineChar = rest.takeWhile isLineChar :=
      Text.takeWhile_withReturns (by decide) (by decide) rest
    have hsame : docTextTail c (withReturns rest) = tail := by
      rw [docTextTail, hline]
      rfl
    rw [Text.withReturns_cons hc, docBody, if_neg hc, if_neg (by simp [Ne.symm hreturn.1]),
      if_neg hgap, if_neg hstar, if_neg htag]
    dsimp only
    rw [hsame]
    exact along_piece (by decide) (by decide) hc (feed_not_mem_docTextTail c rest)
      (docTextTail_isPrefix c rest) hreturn.2 ih hrest

/-- **A doc comment stands along its other form.**. -/
theorem along_doc {body : Text} (hreturn : '\r' ∉ body)
    (hrest : Along (u ++ docSource body) (withReturns (u ++ docSource body)) ls ls') :
    Along u (withReturns u) (doc body ++ ls) (doc (withReturns body) ++ ls') := by
  have hcloser : Along (u ++ ['/', '*', '*'] ++ body) (withReturns (u ++ ['/', '*', '*'] ++ body))
      (⟨.closes .docComment, ['*', '/']⟩ :: ls) (⟨.closes .docComment, ['*', '/']⟩ :: ls') := by
    refine .both_of_not_mem (by decide) (by decide) (by decide) ?_
    simpa [docSource] using hrest
  have hbody := along_docBody_of_plain false body _ hreturn hcloser
  unfold doc
  rw [List.cons_append, List.append_assoc, List.cons_append, List.cons_append, List.append_assoc,
    List.cons_append]
  exact .both_of_not_mem (by decide) (by decide) (by decide) hbody

end DocBody

end Scan

end PhpLint

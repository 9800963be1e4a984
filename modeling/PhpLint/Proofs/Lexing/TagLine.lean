import PhpLint.Proofs.Layout.Stretch
import PhpLint.Proofs.Lexing.DocGroup
import PhpLint.Proofs.Text.Cut

/-!
# What follows a tag on its line

A tag of a doc comment ends at white space of any kind, and a space of the comment is made of blanks,
carriage returns and line feeds only.  Behind a tag the line goes on with such a space, or with text
that starts with white space of another kind (`Comment.lineRest_docBody`, `Comment.exists_rest_of_tag`).

In a stream this tells where the text of a tag's line is, if it has any: two tokens behind the tag, past
a space, or right behind the tag (`TokenStream.tagLine_ofSource`).
-/

namespace PhpLint

namespace Text

theorem drop_eq_of_append {t front rest : Text} (h : t = front ++ rest) :
    t.drop front.length = rest := by
  rw [h, List.drop_left]

/-- What comes behind the characters of a class is not of the class. -/
theorem eq_false_of_mem_head?_drop {p : Char → Bool} {t : Text} {c : Char}
    (h : c ∈ (t.drop (t.takeWhile p).length).head?) : p c = false := by
  rw [drop_eq_of_append List.takeWhile_append_dropWhile.symm] at h
  exact eq_false_of_mem_head?_trimStartOf h

end Text

namespace Comment

/-- White space that the spaces of a doc comment are made of. -/
def isDocSpaceChar (c : Char) : Bool := isGap c || c == '\n'

/-- A lexeme starts with the character it is read at, which tells whether it is a space. -/
theorem exists_of_mem_head? {content : Bool} {t : Text} {l : Lexeme}
    (h : l ∈ (docBody content t).head?) :
    ∃ c ∈ t.head?, l.text.head? = some c ∧ (l.kind = .docSpace ↔ isDocSpaceChar c = true) := by
  revert h
  fun_cases docBody content t with
  | case1 => simp
  | case2 rest =>
    rintro ⟨⟩
    exact ⟨'\n', rfl, rfl, by simp [isDocSpaceChar]⟩
  | case3 c rest hc hreturn =>
    rintro ⟨⟩
    simp only [Bool.and_eq_true, decide_eq_true_eq] at hreturn
    exact ⟨c, rfl, rfl, by simp [isDocSpaceChar, isGap, hreturn.1]⟩
  | case4 c rest hc _ hgap =>
    rintro ⟨⟩
    exact ⟨c, rfl, rfl, by simp [isDocSpaceChar, hgap]⟩
  | case5 c rest hc _ hgap | case6 c rest hc _ hgap | case7 c rest hc _ hgap =>
    rintro ⟨⟩
    exact ⟨c, rfl, rfl, by simp [isDocSpaceChar, hgap, hc]⟩

/-! ## The rest of a line -/

/-- The lexemes from a place on a line that has content: the comment or the line ends, or there are blanks
with text or nothing else on the line behind them, or text that runs to the line's last blanks. -/
inductive LineRest : List Lexeme → Prop
  | ends : LineRest []
  | feed {l : Lexeme} {rest : List Lexeme} (space : l.kind = .docSpace) (feed : '\n' ∈ l.text) :
      LineRest (l :: rest)
  | blank {l : Lexeme} {rest : List Lexeme} (space : l.kind = .docSpace) (feed : '\n' ∉ l.text)
      (next : ∀ l' ∈ rest.head?, l'.kind = .docText ∨ l'.kind = .docSpace ∧ '\n' ∈ l'.text) :
      LineRest (l :: rest)
  | text {l : Lexeme} {rest : List Lexeme} (text : l.kind = .docText)
      (next : ∀ l' ∈ rest.head?, l'.kind = .docSpace) : LineRest (l :: rest)

/-- A return before a line feed takes it along. -/
theorem feed_mem_cons_take {c : Char} {rest : Text}
    (h : (decide (c = '\r') && rest.head? == some '\n') = true) : '\n' ∈ c :: rest.take 1 := by
  simp only [Bool.and_eq_true, beq_iff_eq] at h
  rw [List.take_one, h.2]
  exact List.mem_cons_of_mem _ List.mem_cons_self

/-- A line with content that does not go on with a blank has text there, or ends. -/
theorem docText_or_feed {t : Text} (h : ∀ c ∈ t.head?, isGap c = false) :
    ∀ l ∈ (docBody true t).head?, l.kind = .docText ∨ l.kind = .docSpace ∧ '\n' ∈ l.text := by
  fun_cases docBody true t with
  | case1 => simp
  | case2 rest =>
    rintro l ⟨⟩
    exact .inr ⟨rfl, List.mem_cons_self⟩
  | case3 c rest hc hreturn =>
    rintro l ⟨⟩
    exact .inr ⟨rfl, feed_mem_cons_take hreturn⟩
  | case4 c rest hc _ hgap =>
    rw [h c rfl] at hgap
    cases hgap
  | case5 c rest _ _ _ hstar => simp at hstar
  | case6 c rest _ _ _ _ htag => simp at htag
  | case7 c rest =>
    rintro l ⟨⟩
    exact .inl rfl

/-- What a text leaves of its line is a space. -/
theorem isDocSpaceChar_of_mem_drop {c d : Char} {rest : Text} (hc : isGap c = false)
    (h : d ∈ (rest.drop (docTextTail c rest).length).head?) : isDocSpaceChar d = true := by
  have hline : docTextTail c rest = Text.trimEndOf isBlank (rest.takeWhile isLineChar) := by
    rw [docTextTail, ← List.nil_append (c :: _),
      Text.trimEndOf_append_cons (Bool.or_eq_false_iff.1 hc).1]
    rfl
  -- Behind the text come the blanks that are trimmed off it, or the end of the line.
  obtain ⟨blanks, hsplit, hblanks⟩ := Text.exists_trimEndOf_append isBlank (rest.takeWhile isLineChar)
  have hrest : rest = docTextTail c rest ++ (blanks ++ rest.dropWhile isLineChar) := by
    rw [hline, ← List.append_assoc, ← hsplit, List.takeWhile_append_dropWhile]
  rw [Text.drop_eq_of_append hrest] at h
  cases blanks with
  | nil =>
    have hstop : isLineChar d = false := Text.eq_false_of_mem_head?_trimStartOf h
    simp only [isLineChar, Bool.not_eq_false', Bool.or_eq_true, beq_iff_eq] at hstop
    rcases hstop with rfl | rfl <;> rfl
  | cons b blanks =>
    obtain rfl := Option.some.inj h
    simp [isDocSpaceChar, isGap, hblanks]

/-- The body of a doc comment from a place with content on goes on as the rest of a line. -/
theorem lineRest_docBody (t : Text) : LineRest (docBody true t) := by
  fun_cases docBody true t with
  | case1 => exact .ends
  | case2 rest => exact .feed rfl List.mem_cons_self
  | case3 c rest hc hreturn => exact .feed rfl (feed_mem_cons_take hreturn)
  | case4 c rest hc _ hgap =>
    refine .blank rfl ?_ (docText_or_feed fun d hd => ?_)
    · simpa [Ne.symm hc] using Text.notMem_takeWhile (p := isGap) rfl rest
    · exact Text.eq_false_of_mem_head?_drop hd
  | case5 c rest _ _ _ hstar => simp at hstar
  | case6 c rest _ _ _ _ htag => simp at htag
  | case7 c rest hc _ hgap =>
    refine .text rfl fun l hl => ?_
    obtain ⟨d, hd, -, hspace⟩ := exists_of_mem_head? hl
    exact hspace.2 (isDocSpaceChar_of_mem_drop (Bool.eq_false_iff.2 hgap) hd)

/-- A tag ends where white space comes, and its line has content from there on. -/
theorem exists_rest_of_tag {content : Bool} {t : Text} {xs zs : List Lexeme} {l : Lexeme}
    (h : docBody content t = xs ++ l :: zs) (hl : l.kind = .docTag) :
    ∃ rest, zs = docBody true rest ∧ ∀ c ∈ rest.head?, Unicode.isSpace c = true := by
  fun_induction docBody content t generalizing xs with
  | case1 => simp at h
  | case2 | case3 | case4 | case5 | case7 =>
    rename_i ih
    rcases List.cons_eq_append_iff.1 h with ⟨rfl, hhead⟩ | ⟨xs, rfl, hrest⟩
    · obtain ⟨rfl, -⟩ := List.cons.inj hhead
      cases hl
    · exact ih hrest
  | case6 =>
    rename_i htag tail ih
    rcases List.cons_eq_append_iff.1 h with ⟨rfl, hhead⟩ | ⟨xs, rfl, hrest⟩
    · refine ⟨_, (List.cons.inj hhead).2, fun d hd => ?_⟩
      simpa using Text.eq_false_of_mem_head?_drop hd
    · exact ih hrest

end Comment

namespace TokenStream

open Comment (docBody isDocSpaceChar LineRest)

variable {source : Text} {s : TokenStream} {o c k : Nat}

namespace LaidOut

theorem lexeme?_eq {ls : List Lexeme} (h : LaidOut source s ls) (i : Nat) : s.lexeme? i = ls[i]? := by
  simp [lexeme?, h.token?_eq, Function.comp_def, Token.standing]

/-- Behind the opener of a doc comment come the lexemes of its body and its closer. -/
theorem lexeme?_doc {before after : List Lexeme} {body : Text}
    (h : LaidOut source s (before ++ Comment.doc body ++ after)) {m : Nat}
    (hm : m ≤ (docBody false body).length) :
    s.lexeme? (before.length + 1 + m) =
      (docBody false body ++ [⟨.closes .docComment, ['*', '/']⟩])[m]? := by
  rw [h.lexeme?_eq, List.append_assoc, List.getElem?_append_right (by omega),
    show before.length + 1 + m - before.length = m + 1 by omega, Comment.doc, List.cons_append,
    List.cons_append, List.getElem?_cons_succ, List.getElem?_append_left (by simp; omega)]

end LaidOut

/-- The tokens behind a tag are the lexemes of the text behind it, up to the closer. -/
theorem exists_rest_of_docTag (hs : ofSource source = .ok s) (hdoc : DocGroup s o c) (hok : o < k)
    (hkc : k < c) (htag : s.isAt k .docTag = true) :
    ∃ rest : Text, (∀ d ∈ rest.head?, Unicode.isSpace d = true) ∧
      c = k + 1 + (docBody true rest).length ∧
      ∀ m ≤ (docBody true rest).length, s.lexeme? (k + 1 + m) =
        (docBody true rest ++ [⟨.closes .docComment, ['*', '/']⟩])[m]? := by
  obtain ⟨ls, hlaid⟩ := exists_laidOut hs
  obtain ⟨before, body, after, rfl, -, rfl, rfl⟩ := hlaid.exists_of_docGroup hdoc
  obtain ⟨n, rfl⟩ : ∃ n, k = before.length + 1 + n := ⟨k - (before.length + 1), by omega⟩
  have hn : n < (docBody false body).length := by omega
  have hkind : (docBody false body)[n].kind = .docTag := by
    rw [isAt_iff, kind?_eq_lexeme?, hlaid.lexeme?_doc (Nat.le_of_lt hn),
      List.getElem?_append_left hn, List.getElem?_eq_getElem hn] at htag
    exact Option.some.inj htag
  have hbody : docBody false body =
      (docBody false body).take n ++ (docBody false body)[n] :: (docBody false body).drop (n + 1) := by
    rw [← List.drop_eq_getElem_cons hn, List.take_append_drop]
  obtain ⟨rest, hrest, hspace⟩ := Comment.exists_rest_of_tag hbody hkind
  refine ⟨rest, hspace, by rw [← hrest, List.length_drop]; omega, fun m hm => ?_⟩
  rw [← hrest, List.length_drop] at hm
  rw [show before.length + 1 + n + 1 + m = before.length + 1 + (n + 1 + m) by omega,
    hlaid.lexeme?_doc (by omega), ← hrest, ← List.drop_append_of_le_length hn, List.getElem?_drop]

/-- The tokens behind the tag at `k` of a doc comment that closes at `c`. -/
inductive TagLine (s : TokenStream) (k c : Nat) : Prop
  /-- The comment ends. -/
  | ends (closer : c = k + 1)
  /-- The line ends. -/
  | feed (space : s.isAt (k + 1) .docSpace = true) (feed : '\n' ∈ s.content (k + 1))
  /-- The line holds a space and nothing else. -/
  | blank (space : s.isAt (k + 1) .docSpace = true)
      (next : c = k + 2 ∨ s.isAt (k + 2) .docSpace = true ∧ '\n' ∈ s.content (k + 2))
  /-- The line holds a space and then text. -/
  | described (space : s.isAt (k + 1) .docSpace = true) (feed : '\n' ∉ s.content (k + 1))
      (lt : k + 2 < c) (text : s.isAt (k + 2) .docText = true)
  /-- The line holds text that no space parts from the tag. -/
  | tied (lt : k + 1 < c) (text : s.isAt (k + 1) .docText = true)
      (next : c = k + 2 ∨ s.isAt (k + 2) .docSpace = true)

theorem isAt_of_lexeme? {i : Nat} {l : Lexeme} {kind : Kind} (h : s.lexeme? i = some l)
    (hkind : l.kind = kind) : s.isAt i kind = true := by
  rw [isAt_iff, kind?_eq_lexeme?, h, Option.map_some, hkind]

/-- The content of a token is the text of its lexeme. -/
theorem content_of_lexeme? {i : Nat} {l : Lexeme} (h : s.lexeme? i = some l) :
    s.content i = l.text := by
  rw [content_eq_lexeme?, h]
  rfl

section Tag

variable (hs : ofSource source = .ok s) (hdoc : DocGroup s o c) (hok : o < k) (hkc : k < c)
  (htag : s.isAt k .docTag = true)
include hs hdoc hok hkc htag

/-- **Behind a tag** the line ends, or goes on with a space and perhaps text behind it, or with text. -/
theorem tagLine_ofSource : TagLine s k c := by
  obtain ⟨rest, -, rfl, hlexeme⟩ := exists_rest_of_docTag hs hdoc hok hkc htag
  have hline := Comment.lineRest_docBody rest
  generalize docBody true rest = ls at hlexeme hline
  cases hline with
  | ends => exact .ends rfl
  | @feed l ls space feed =>
    have hl : s.lexeme? (k + 1) = some l := hlexeme 0 (Nat.zero_le _)
    exact .feed (isAt_of_lexeme? hl space) (by rwa [content_of_lexeme? hl])
  | @blank l ls space feed next =>
    have hl : s.lexeme? (k + 1) = some l := hlexeme 0 (Nat.zero_le _)
    cases ls with
    | nil => exact .blank (isAt_of_lexeme? hl space) (.inl rfl)
    | cons l' ls =>
      have hl' : s.lexeme? (k + 2) = some l' := hlexeme 1 (by simp)
      rcases next l' rfl with text | ⟨space', feed'⟩
      · exact .described (isAt_of_lexeme? hl space) (by rwa [content_of_lexeme? hl])
          (by simp; omega) (isAt_of_lexeme? hl' text)
      · exact .blank (isAt_of_lexeme? hl space)
          (.inr ⟨isAt_of_lexeme? hl' space', by rwa [content_of_lexeme? hl']⟩)
  | @text l ls text next =>
    have hl : s.lexeme? (k + 1) = some l := hlexeme 0 (Nat.zero_le _)
    refine .tied (by simp) (isAt_of_lexeme? hl text) ?_
    cases ls with
    | nil => exact .inl rfl
    | cons l' ls =>
      have hl' : s.lexeme? (k + 2) = some l' := hlexeme 1 (by simp)
      exact .inr (isAt_of_lexeme? hl' (next l' rfl))

/-- White space behind a tag is text unless the comment's spaces are made of it. -/
theorem isDocSpaceChar_iff_of_docTag :
    (∀ d ∈ (s.content (k + 1)).head?, Unicode.isSpace d = true → isDocSpaceChar d = true) ↔
      s.isAt (k + 1) .docText = false := by
  obtain ⟨rest, hspace, rfl, hlexeme⟩ := exists_rest_of_docTag hs hdoc hok hkc htag
  have hnext := hlexeme 0 (Nat.zero_le _)
  have hline := Comment.lineRest_docBody rest
  cases hbody : docBody true rest with
  | nil =>
    have hl : s.lexeme? (k + 1) = some ⟨.closes .docComment, ['*', '/']⟩ := by
      rwa [hbody] at hnext
    rw [content_of_lexeme? hl, isAt, kind?_eq_lexeme?, hl]
    refine iff_of_true ?_ rfl
    rintro d ⟨⟩
    decide
  | cons l ls =>
    have hl : s.lexeme? (k + 1) = some l := by rwa [hbody] at hnext
    have hhead : l ∈ (docBody true rest).head? := by rw [hbody]; rfl
    obtain ⟨d, hd, htext, hkind⟩ := Comment.exists_of_mem_head? hhead
    rw [content_of_lexeme? hl, htext, isAt, kind?_eq_lexeme?, hl, Option.map_some]
    simp only [Option.mem_some_iff, forall_eq', hspace d hd, true_imp_iff, ← hkind]
    rw [hbody] at hline
    cases hline with
    | feed space | blank space => simp [space]
    | text text => simp [text]

end Tag

end TokenStream

end PhpLint

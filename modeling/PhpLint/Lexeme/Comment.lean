import PhpLint.Lexeme

/-!
# Comments

A line comment runs to the end of its line or of the PHP code; a carriage return at its end belongs
to the line end.  A block comment runs to the first star and slash after its opening characters.  A
**doc comment** is a block comment that opens with two stars and white space; it is read as a group
of lexemes between its two ends.

Inside, each line may start with stars and white space.  The first `@` or other character that is
neither makes the rest of the line its **content**: a tag up to the next white space, or text up to
the line's end less the blanks there.
-/

namespace PhpLint.Comment

/-- The text before the line ends or PHP code does. -/
def untilLineEnd : Text → Text
  | [] => []
  | c :: rest =>
    if c = '\n' then [] else if c = '?' && rest.head? == some '>' then []
    else c :: untilLineEnd rest

/-- The rest of a line comment after its first character. -/
def lineTail (rest : Text) : Text := Text.dropReturn (untilLineEnd rest)

/-- The text before the first star and slash, if there is one. -/
def untilClose : Text → Option Text
  | [] => none
  | c :: rest =>
    if c = '*' && rest.head? == some '/' then some [] else (untilClose rest).map (c :: ·)

/-- A comment that is closed has the closing mark behind its body. -/
theorem untilClose_eq_append {t body : Text} (h : untilClose t = some body) :
    ∃ after, t = body ++ ['*', '/'] ++ after := by
  induction t generalizing body with
  | nil => simp [untilClose] at h
  | cons c rest ih =>
    rw [untilClose] at h
    split at h
    · next hc =>
      cases rest with
      | nil => simp at hc
      | cons d r => simp_all
    · obtain ⟨b, hb, rfl⟩ := Option.map_eq_some_iff.1 h
      obtain ⟨after, rfl⟩ := ih hb
      exact ⟨after, by simp⟩

/-- After a slash: two stars and white space, which open a doc comment. -/
def opensDoc : Text → Bool
  | '*' :: '*' :: c :: _ => Unicode.isSpace c
  | _ => false

/-- The characters of a line, which ends at a carriage return or a line feed. -/
def isLineChar (c : Char) : Bool := !(c == '\n' || c == '\r')

/-- A doc comment's text from `c` on: as far as the line goes, less the blanks at its end. -/
def docTextTail (c : Char) (rest : Text) : Text :=
  (Text.trimEndOf isBlank (c :: rest.takeWhile isLineChar)).drop 1

/-- The lexemes of a doc comment's body; `content` says that its line has content already. -/
def docBody (content : Bool) : Text → List Lexeme
  | [] => []
  | c :: rest =>
    if c = '\n' then ⟨.docSpace, [c]⟩ :: docBody false rest
    else if c = '\r' && rest.head? == some '\n' then
      ⟨.docSpace, c :: rest.take 1⟩ :: docBody false (rest.drop 1)
    else if isGap c then
      let tail := rest.takeWhile isGap
      ⟨.docSpace, c :: tail⟩ :: docBody content (rest.drop tail.length)
    else if c = '*' && !content then ⟨.docStar, [c]⟩ :: docBody content rest
    else if c = '@' && !content then
      let tail := rest.takeWhile fun d => !Unicode.isSpace d
      ⟨.docTag, c :: tail⟩ :: docBody true (rest.drop tail.length)
    else
      let tail := docTextTail c rest
      ⟨.docText, c :: tail⟩ :: docBody true (rest.drop tail.length)
termination_by t => t.length
decreasing_by all_goals (simp only [List.length_cons, List.length_drop]; omega)

/-- A whole doc comment around its body. -/
def doc (body : Text) : List Lexeme :=
  ⟨.opens .docComment, ['/', '*', '*']⟩ :: docBody false body ++
    [⟨.closes .docComment, ['*', '/']⟩]

end PhpLint.Comment

import PhpLint.Sniff

/-!
# Blank lines in doc comments

A doc comment of several lines has a fixed number of blank lines in five places: before its first
content, between the description and the first tag, between two tags with the same name, between two
tags with different names, and after its last content.  A count of blank lines is the distance of
two line numbers; the line that ends a part is the one that holds its last content.
-/

namespace PhpLint.DocCommentSpacing

/-- The number of blank lines in each place. -/
structure Spacing where
  beforeFirst : Nat := 0
  afterDescription : Nat := 1
  betweenDifferent : Nat := 1
  betweenSame : Nat := 0
  afterLast : Nat := 0
  deriving DecidableEq, Repr

/-- The number of lines strictly between two lines. -/
def blankLines (above below : Nat) : Nat := below - above - 1

/-- A finding at a token when the number of blank lines in a place is not the expected one. -/
def expect (index : Nat) (reason place : String) (expected found : Nat) : List Finding :=
  if expected = found then []
  else
    let plural := if expected = 1 then "" else "s"
    let message := s!"Expected {expected} line{plural} {place}, found {found}"
    [{ index, reason := "IncorrectLinesCount" ++ reason, message }]

/-- The line of the last content before an index and after the comment's opener. -/
def contentLineBefore? (s : TokenStream) (opener i : Nat) : Option Nat :=
  ((s.findBefore Kind.isDocContent i).filter (opener < ·)).map s.line

/-- The findings between the description and the first tag, if both are there. -/
def afterDescription (s : TokenStream) (spacing : Spacing) (opener first : Nat)
    (tags : List Nat) : List Finding :=
  match tags with
  | [] => []
  | tag :: _ =>
    if first < tag then
      let last := (contentLineBefore? s opener tag).getD (s.line first)
      expect tag "BetweenDescriptionAndAnnotations" "between description and annotations"
        spacing.afterDescription (blankLines last (s.line tag))
    else []

/-- The findings between a tag and the next one. -/
def betweenTags (s : TokenStream) (spacing : Spacing) (opener tag next : Nat) : List Finding :=
  let last := (contentLineBefore? s opener next).getD (s.line tag)
  let found := blankLines last (s.line next)
  if s.content tag = s.content next then
    expect next "BetweenSameAnnotations" "between same annotations" spacing.betweenSame found
  else
    expect next "BetweenDifferentAnnotationsTypes" "between different annotations types"
      spacing.betweenDifferent found

/-- The findings between neighbours in a list of tags. -/
def betweenAll (s : TokenStream) (spacing : Spacing) (opener : Nat) : List Nat → List Finding
  | tag :: next :: tags =>
    betweenTags s spacing opener tag next ++ betweenAll s spacing opener (next :: tags)
  | _ => []

/-- The findings after the last content. -/
def afterLast (s : TokenStream) (spacing : Spacing) (opener closer : Nat) : List Finding :=
  match contentLineBefore? s opener (closer + 1) with
  | some last =>
    expect closer "AfterLastContent" "after last content" spacing.afterLast
      (blankLines last (s.line closer))
  | none => []

/-- The findings in the doc comment that opens at an index. -/
def findings (spacing : Spacing) (ctx : FileContext) (opener : Nat) : List Finding :=
  let s := ctx.stream
  match s.partner? opener with
  | none => []
  | some closer =>
    if s.line opener = s.line closer then []
    else match s.findNextBefore Kind.isDocContent opener closer with
      | none => []
      | some first =>
        let tags := s.docTags opener
        expect opener "BeforeFirstContent" "before first content" spacing.beforeFirst
            (blankLines (s.line opener) (s.line first)) ++
          afterDescription s spacing opener first tags ++
          betweenAll s spacing opener tags ++
          afterLast s spacing opener closer

/-- The check for blank lines in doc comments. -/
def sniff (severity : Severity) (spacing : Spacing) : Sniff where
  name := "doc-comment-spacing"
  code := "PS003"
  description := "Enforces blank-line counts inside doc comments"
  severity
  listensTo := [.opens .docComment]
  findings := findings spacing

end PhpLint.DocCommentSpacing

import Mathlib.Data.List.Sort
import PhpLint.Proofs.Lexing.DocGroup
import PhpLint.Proofs.Lexing.Positions
import PhpLint.Proofs.Lexing.Search
import PhpLint.Sniff.DocCommentSpacing

/-!
# Blank lines are counted on the page

The check never looks at a line: it searches backward for the last content in front of a token and
subtracts line numbers.  Here the same is read off the page.  A `Sheet` says of every line of a doc
comment whether it is blank, text, or starts with a tag, and `Sheet.places` counts the blank lines
in each place one by one.

Lines never decrease along a comment, and a tag is the first content on its line.  So the first and
the last content line of a part are those of its first and last content token, no content lies
between two parts, and the difference of two line numbers counts blank lines (`blanks_eq`).
`findings_eq_report` puts the places together.
-/

namespace PhpLint.DocCommentSpacing

open TokenStream (DocGroup LaidOut)

/-! ## The lines of a doc comment -/

/-- What a line of a doc comment holds. -/
inductive LineKind
  | blank
  | text
  /-- The content of the line starts with the tag at an index. -/
  | tag (index : Nat)
  deriving DecidableEq, Repr

namespace LineKind

def isBlank : LineKind → Bool
  | blank => true
  | _ => false

def isText : LineKind → Bool
  | text => true
  | _ => false

def tag? : LineKind → Option Nat
  | tag index => some index
  | _ => none

end LineKind

/-- A place where blank lines are counted, and the token at which a wrong count is reported. -/
structure Place where
  index : Nat
  reason : String
  wording : String
  expected : Nat
  count : Nat
  deriving DecidableEq, Repr

namespace Place

/-- The count is not the configured one. -/
def isOff (p : Place) : Bool := p.expected != p.count

/-- The finding that a wrong count becomes. -/
def finding (p : Place) : Finding :=
  let plural := if p.expected = 1 then "" else "s"
  { index := p.index
    reason := "IncorrectLinesCount" ++ p.reason
    message := s!"Expected {p.expected} line{plural} {p.wording}, found {p.count}" }

/-- The findings in places: one for each wrong count. -/
def report (places : List Place) : List Finding := (places.filter isOff).map finding

end Place

/-- The lines of a doc comment, from the opener's to the closer's, and what each of them holds. -/
structure Sheet where
  first : Nat
  last : Nat
  kind : Nat → LineKind

namespace Sheet

variable (sheet : Sheet)

def lines : List Nat := List.range' sheet.first (sheet.last + 1 - sheet.first)

def contentLines : List Nat := sheet.lines.filter fun line => !(sheet.kind line).isBlank

def textLines : List Nat := sheet.lines.filter fun line => (sheet.kind line).isText

/-- The lines that start with a tag, with the tags. -/
def tagLines : List (Nat × Nat) :=
  sheet.lines.filterMap fun line => (sheet.kind line).tag?.map (line, ·)

/-- How many of the lines strictly between two lines are blank. -/
def blanks (above below : Nat) : Nat :=
  (List.range' (above + 1) (below - (above + 1))).countP fun line => (sheet.kind line).isBlank

variable (spacing : Spacing)

/-- Between the opener and the first content line. -/
def beforeFirst (opener : Nat) : List Place :=
  sheet.contentLines.head?.toList.map fun line =>
    ⟨opener, "BeforeFirstContent", "before first content", spacing.beforeFirst,
      sheet.blanks sheet.first line⟩

/-- Between the last text line before the first tag and that tag. -/
def afterDescription : List (Nat × Nat) → List Place
  | [] => []
  | (line, tag) :: _ => (sheet.textLines.filter (· < line)).getLast?.toList.map fun text =>
      ⟨tag, "BetweenDescriptionAndAnnotations", "between description and annotations",
        spacing.afterDescription, sheet.blanks text line⟩

/-- Between the last content line of a tag and the next tag. -/
def between (name : Nat → Text) (tag next : Nat × Nat) : List Place :=
  let content := sheet.contentLines.filter fun line => tag.1 ≤ line ∧ line < next.1
  content.getLast?.toList.map fun line =>
    if name tag.2 = name next.2 then
      ⟨next.2, "BetweenSameAnnotations", "between same annotations", spacing.betweenSame,
        sheet.blanks line next.1⟩
    else
      ⟨next.2, "BetweenDifferentAnnotationsTypes", "between different annotations types",
        spacing.betweenDifferent, sheet.blanks line next.1⟩

/-- Between each tag and its predecessor. -/
def betweenAll (name : Nat → Text) : List (Nat × Nat) → List Place
  | tag :: next :: tags =>
    sheet.between spacing name tag next ++ betweenAll name (next :: tags)
  | _ => []

/-- Between the last content line and the closer. -/
def afterLast (closer : Nat) : List Place :=
  sheet.contentLines.getLast?.toList.map fun line =>
    ⟨closer, "AfterLastContent", "after last content", spacing.afterLast,
      sheet.blanks line sheet.last⟩

/-- All places where blank lines are counted. -/
def places (name : Nat → Text) (opener closer : Nat) : List Place :=
  sheet.beforeFirst spacing opener ++ sheet.afterDescription spacing sheet.tagLines ++
    sheet.betweenAll spacing name sheet.tagLines ++ sheet.afterLast spacing closer

end Sheet

/-- The first content on a line of the doc comment from `opener` to `closer`. -/
def firstContent? (s : TokenStream) (opener closer line : Nat) : Option Nat :=
  (List.range' (opener + 1) (closer - (opener + 1))).find? fun i =>
    s.has i Kind.isDocContent && s.line i == line

/-- The lines of the doc comment from `opener` to `closer`. -/
def sheet (s : TokenStream) (opener closer : Nat) : Sheet where
  first := s.line opener
  last := s.line closer
  kind line :=
    match firstContent? s opener closer line with
    | none => .blank
    | some i => if s.isAt i .docTag then .tag i else .text

/-- Content at an index inside of the doc comment from `opener` to `closer`. -/
structure IsContent (s : TokenStream) (opener closer i : Nat) : Prop where
  opener_lt : opener < i
  lt_closer : i < closer
  content : s.has i Kind.isDocContent = true

/-- A doc comment's tokens stand on lines: these never decrease, and a tag is the first content on
its line. -/
structure Ruled (s : TokenStream) (opener closer : Nat) : Prop where
  group : DocGroup s opener closer
  line_le : ∀ {i j}, i ≤ j → j ≤ closer → s.line i ≤ s.line j
  line_lt : ∀ {i j}, IsContent s opener closer i → IsContent s opener closer j → i < j →
    s.isAt j .docTag = true → s.line i < s.line j

/-- The doc comments of a source stand on lines. -/
theorem ruled_of_ofSource {source : Text} {s : TokenStream} {opener closer : Nat}
    (h : TokenStream.ofSource source = .ok s) (hgroup : DocGroup s opener closer) :
    Ruled s opener closer := by
  obtain ⟨ls, hlaid⟩ := TokenStream.exists_laidOut h
  have hsize : closer < s.size :=
    TokenStream.lt_size_of_has (TokenStream.has_of_isAt hgroup.closer fun _ => true)
  constructor
  case group => exact hgroup
  case line_le =>
    intro i j hij hj
    exact hlaid.line_le hij (Nat.lt_of_le_of_lt hj hsize)
  case line_lt =>
    intro i j hi hj hij htag
    obtain ⟨t, ht⟩ := TokenStream.exists_token? (Nat.lt_trans hi.lt_closer hsize)
    obtain ⟨u, hu⟩ := TokenStream.exists_token? (Nat.lt_trans hj.lt_closer hsize)
    have hcontent := hi.content
    rw [TokenStream.isAt_of_token? hu] at htag
    rw [TokenStream.has_of_token? ht] at hcontent
    have hlt := hlaid.line_lt_of_tag hgroup hi.opener_lt hij hj.lt_closer ht hu hcontent htag
    rwa [TokenStream.line_of_token? ht, TokenStream.line_of_token? hu]

/-! ## What the lines hold -/

section Lines

variable {s : TokenStream} {o c : Nat} {i j line : Nat}

/-- The first content on a line is the one that none on that line stands before. -/
theorem firstContent?_eq_some_iff :
    firstContent? s o c line = some i ↔
      IsContent s o c i ∧ s.line i = line ∧ ∀ j, IsContent s o c j → s.line j = line → i ≤ j := by
  unfold firstContent?
  rw [List.find?_range'_eq_some]
  simp only [Bool.and_eq_true, beq_iff_eq, List.mem_range'_1, Bool.not_eq_true',
    Bool.and_eq_false_iff]
  constructor
  · intro hparts
    obtain ⟨⟨hcontent, hline⟩, ⟨hlow, hhigh⟩, hfirst⟩ := hparts
    refine ⟨⟨hlow, by omega, hcontent⟩, hline, fun j hj hjline => ?_⟩
    by_contra hlt
    rcases hfirst j hj.opener_lt (by omega) with hnone | hnone
    · rw [hj.content] at hnone
      cases hnone
    · simp [hjline] at hnone
  · intro hparts
    obtain ⟨hi, hline, hfirst⟩ := hparts
    have hlow := hi.opener_lt
    have hhigh := hi.lt_closer
    refine ⟨⟨hi.content, hline⟩, ⟨hlow, by omega⟩, fun j hj hji => ?_⟩
    by_contra hnot
    rw [not_or, Bool.not_eq_false, Bool.not_eq_false, beq_iff_eq] at hnot
    have hle := hfirst j ⟨hj, by omega, hnot.1⟩ hnot.2
    omega

/-- A line without a first content has no content. -/
theorem firstContent?_eq_none_iff :
    firstContent? s o c line = none ↔ ∀ i, IsContent s o c i → s.line i ≠ line := by
  unfold firstContent?
  rw [List.find?_eq_none]
  simp only [List.mem_range'_1, Bool.and_eq_true, beq_iff_eq, not_and]
  constructor
  · intro hnone i hi
    have hlow := hi.opener_lt
    have hhigh := hi.lt_closer
    exact hnone i ⟨hlow, by omega⟩ hi.content
  · intro hnone i hi hcontent
    exact hnone i ⟨hi.1, by omega, hcontent⟩

/-- A line is blank when no content stands on it. -/
theorem isBlank_iff :
    ((sheet s o c).kind line).isBlank = true ↔ ∀ i, IsContent s o c i → s.line i ≠ line := by
  rw [← firstContent?_eq_none_iff]
  simp only [sheet]
  cases firstContent? s o c line with
  | none => simp [LineKind.isBlank]
  | some i => by_cases htag : s.isAt i .docTag = true <;> simp [htag, LineKind.isBlank]

/-- A line is not blank when some content stands on it. -/
theorem isBlank_eq_false_iff :
    ((sheet s o c).kind line).isBlank = false ↔ ∃ i, IsContent s o c i ∧ s.line i = line := by
  rw [← Bool.not_eq_true, isBlank_iff]
  push Not
  rfl

/-- The line of a content has a first content, no later than that one. -/
theorem exists_firstContent? (hi : IsContent s o c i) :
    ∃ j, firstContent? s o c (s.line i) = some j ∧ j ≤ i := by
  cases hfirst : firstContent? s o c (s.line i) with
  | none => exact absurd rfl (firstContent?_eq_none_iff.1 hfirst i hi)
  | some j => exact ⟨j, rfl, (firstContent?_eq_some_iff.1 hfirst).2.2 i hi rfl⟩

/-- Of the content on a tag's line the tag is the first. -/
theorem Ruled.firstContent?_of_tag (h : Ruled s o c) (hi : IsContent s o c i)
    (htag : s.isAt i .docTag = true) : firstContent? s o c (s.line i) = some i := by
  refine firstContent?_eq_some_iff.2 ⟨hi, rfl, fun j hj hline => ?_⟩
  by_contra hlt
  have := h.line_lt hj hi (by omega) htag
  omega

/-- A line starts with a tag when the tag stands on it. -/
theorem Ruled.tag?_eq_some_iff (h : Ruled s o c) :
    ((sheet s o c).kind line).tag? = some i ↔
      IsContent s o c i ∧ s.isAt i .docTag = true ∧ s.line i = line := by
  constructor
  · intro hkind
    simp only [sheet] at hkind
    split at hkind
    · cases hkind
    · next j hj =>
      split at hkind
      · next htag =>
        obtain rfl := Option.some.inj hkind
        obtain ⟨hj, hline, -⟩ := firstContent?_eq_some_iff.1 hj
        exact ⟨hj, htag, hline⟩
      · cases hkind
  · intro hparts
    obtain ⟨hi, htag, hline⟩ := hparts
    rw [← hline]
    simp only [sheet, h.firstContent?_of_tag hi htag, htag]
    rfl

/-- A line is text when content stands on it, but no tag. -/
theorem Ruled.isText_iff (h : Ruled s o c) :
    ((sheet s o c).kind line).isText = true ↔
      (∃ i, IsContent s o c i ∧ s.line i = line) ∧
        ∀ i, IsContent s o c i → s.isAt i .docTag = true → s.line i ≠ line := by
  constructor
  · intro htext
    simp only [sheet] at htext
    split at htext
    · cases htext
    · next i hi =>
      split at htext
      · cases htext
      · next hplain =>
        obtain ⟨hcontent, hline, -⟩ := firstContent?_eq_some_iff.1 hi
        refine ⟨⟨i, hcontent, hline⟩, fun j hj htag hjline => hplain ?_⟩
        have hfirst := h.firstContent?_of_tag hj htag
        rw [hjline, hi] at hfirst
        rwa [Option.some.inj hfirst]
  · intro hparts
    obtain ⟨⟨i, hi, hline⟩, hplain⟩ := hparts
    obtain ⟨j, hj, -⟩ := exists_firstContent? hi
    rw [hline] at hj
    obtain ⟨hcontent, hjline, -⟩ := firstContent?_eq_some_iff.1 hj
    have htag : s.isAt j .docTag = false := by
      rw [Bool.eq_false_iff]
      intro htag
      exact hplain j hcontent htag hjline
    simp [sheet, hj, htag, LineKind.isText]

/-- Content of a comment stands on one of its lines. -/
theorem Ruled.mem_lines (h : Ruled s o c) (hi : IsContent s o c i) :
    s.line i ∈ (sheet s o c).lines := by
  have hlow := h.line_le (Nat.le_of_lt hi.opener_lt) (Nat.le_of_lt hi.lt_closer)
  have hhigh := h.line_le (Nat.le_of_lt hi.lt_closer) (Nat.le_refl c)
  simp only [Sheet.lines, sheet, List.mem_range'_1]
  omega

/-- The content lines are the lines of the content. -/
theorem Ruled.mem_contentLines_iff (h : Ruled s o c) :
    line ∈ (sheet s o c).contentLines ↔ ∃ i, IsContent s o c i ∧ s.line i = line := by
  rw [Sheet.contentLines, List.mem_filter, Bool.not_eq_true', isBlank_eq_false_iff]
  constructor
  · exact And.right
  · intro hparts
    obtain ⟨i, hi, hline⟩ := hparts
    exact ⟨hline ▸ h.mem_lines hi, i, hi, hline⟩

/-- The text lines are the lines of the content, those of tags left out. -/
theorem Ruled.mem_textLines_iff (h : Ruled s o c) :
    line ∈ (sheet s o c).textLines ↔ (∃ i, IsContent s o c i ∧ s.line i = line) ∧
      ∀ i, IsContent s o c i → s.isAt i .docTag = true → s.line i ≠ line := by
  rw [Sheet.textLines, List.mem_filter, h.isText_iff]
  constructor
  · exact And.right
  · intro hparts
    obtain ⟨⟨i, hi, hline⟩, hplain⟩ := hparts
    exact ⟨hline ▸ h.mem_lines hi, ⟨i, hi, hline⟩, hplain⟩

theorem pairwise_lines (sheet : Sheet) : sheet.lines.Pairwise (· < ·) :=
  List.pairwise_lt_range'

/-- The number of blank lines between two lines with no content between them. -/
theorem blanks_eq {above below : Nat}
    (h : ∀ i, IsContent s o c i → s.line i ≤ above ∨ below ≤ s.line i) :
    (sheet s o c).blanks above below = blankLines above below := by
  have hall : ∀ line ∈ List.range' (above + 1) (below - (above + 1)),
      ((sheet s o c).kind line).isBlank = true := by
    intro line hline
    rw [List.mem_range'_1] at hline
    refine isBlank_iff.2 fun i hi => ?_
    rcases h i hi with hle | hle <;> omega
  rw [Sheet.blanks, List.countP_eq_length.2 hall, List.length_range', blankLines]
  omega

end Lines

/-! ## First and last -/

/-- The least line of an ordered list is its first. -/
theorem head?_eq_some_of_le {lines : List Nat} {x : Nat} (hsorted : lines.Pairwise (· < ·))
    (hx : x ∈ lines) (hmin : ∀ y ∈ lines, x ≤ y) : lines.head? = some x := by
  cases hsorted with
  | nil => cases hx
  | @cons y lines hy hsorted =>
    rcases List.mem_cons.1 hx with rfl | hx
    · rfl
    · have hle := hmin y List.mem_cons_self
      have hlt := hy x hx
      omega

/-- The greatest line of an ordered list is its last. -/
theorem getLast?_eq_some_of_le {lines : List Nat} {x : Nat} (hsorted : lines.Pairwise (· < ·))
    (hx : x ∈ lines) (hmax : ∀ y ∈ lines, y ≤ x) : lines.getLast? = some x := by
  obtain ⟨front, back, rfl⟩ := List.append_of_mem hx
  cases back with
  | nil => simp
  | cons y back =>
    have hlt := (List.pairwise_cons.1 (List.pairwise_append.1 hsorted).2.1).1 y List.mem_cons_self
    have hle := hmax y (by simp)
    omega

/-! ## Tags and the content in front of them -/

section Places

variable {s : TokenStream} {o c i n : Nat}

/-- The tags of a comment are the tags among its content. -/
theorem Ruled.mem_docTags_iff (h : Ruled s o c) :
    i ∈ s.docTags o ↔ IsContent s o c i ∧ s.isAt i .docTag = true := by
  simp only [TokenStream.docTags, h.group.partner?.1, List.mem_filter, List.mem_range'_1]
  constructor
  · intro hparts
    obtain ⟨⟨hlow, hhigh⟩, htag⟩ := hparts
    have hne : i ≠ o := by
      rintro rfl
      rw [TokenStream.isAt_iff, TokenStream.isAt_iff.1 h.group.opener] at htag
      cases htag
    exact ⟨⟨by omega, by omega, TokenStream.has_of_isAt htag _⟩, htag⟩
  · intro hparts
    obtain ⟨hi, htag⟩ := hparts
    have hlow := hi.opener_lt
    have hhigh := hi.lt_closer
    exact ⟨by omega, htag⟩

/-- The tags of a comment are found in order. -/
theorem pairwise_docTags (s : TokenStream) (o : Nat) : (s.docTags o).Pairwise (· < ·) := by
  unfold TokenStream.docTags
  split
  · exact (List.pairwise_lt_range').filter _
  · exact .nil

/-- The lines that start with a tag are those of the tags. -/
theorem Ruled.tagLines_eq (h : Ruled s o c) :
    (sheet s o c).tagLines = (s.docTags o).map fun tag => (s.line tag, tag) := by
  have hindices : (sheet s o c).lines.filterMap (fun line => ((sheet s o c).kind line).tag?) =
      s.docTags o := by
    have hsorted : ((sheet s o c).lines.filterMap
        (fun line => ((sheet s o c).kind line).tag?)).Pairwise (· < ·) := by
      refine List.pairwise_filterMap.2 ((pairwise_lines _).imp ?_)
      intro line line' hlt i hi j hj
      obtain ⟨hi, -, hline⟩ := h.tag?_eq_some_iff.1 hi
      obtain ⟨hj, -, hline'⟩ := h.tag?_eq_some_iff.1 hj
      by_contra hle
      have hlines := h.line_le (Nat.le_of_not_lt hle) (Nat.le_of_lt hi.lt_closer)
      omega
    refine hsorted.eq_of_mem_iff (pairwise_docTags s o) fun i => ?_
    rw [List.mem_filterMap, h.mem_docTags_iff]
    constructor
    · intro hparts
      obtain ⟨line, -, hkind⟩ := hparts
      obtain ⟨hi, htag, -⟩ := h.tag?_eq_some_iff.1 hkind
      exact ⟨hi, htag⟩
    · intro hparts
      obtain ⟨hi, htag⟩ := hparts
      exact ⟨s.line i, h.mem_lines hi, h.tag?_eq_some_iff.2 ⟨hi, htag, rfl⟩⟩
  rw [← hindices, List.map_filterMap, Sheet.tagLines]
  refine List.filterMap_congr fun line _ => ?_
  cases hkind : ((sheet s o c).kind line).tag? with
  | none => rfl
  | some i => rw [Option.map_some, Option.map_some, (h.tag?_eq_some_iff.1 hkind).2.2]

/-- The search for the last content before an index finds it if there is any. -/
theorem Ruled.exists_contentLineBefore (h : Ruled s o c) (hi : IsContent s o c i) (hin : i < n)
    (hn : n ≤ c + 1) :
    ∃ k, IsContent s o c k ∧ i ≤ k ∧ k < n ∧ (∀ j, IsContent s o c j → j < n → j ≤ k) ∧
      contentLineBefore? s o n = some (s.line k) := by
  cases hfound : s.findBefore Kind.isDocContent n with
  | none =>
    have hnone := TokenStream.findBefore_eq_none_iff.1 hfound i hin
    rw [hi.content] at hnone
    cases hnone
  | some k =>
    obtain ⟨hkn, hk, hlast⟩ := TokenStream.findBefore_eq_some_iff.1 hfound
    have hmax (j : Nat) (hj : IsContent s o c j) (hjn : j < n) : j ≤ k := by
      by_contra hlt
      have hnone := hlast j (by omega) hjn
      rw [hj.content] at hnone
      cases hnone
    have hik := hmax i hi hin
    have hlow := hi.opener_lt
    have hne : k ≠ c := by
      rintro rfl
      rw [TokenStream.has_of_isAt h.group.closer] at hk
      cases hk
    refine ⟨k, ⟨by omega, by omega, hk⟩, hik, hkn, hmax, ?_⟩
    rw [contentLineBefore?, hfound, Option.filter_some, if_pos (by simp; omega), Option.map_some]

/-! ## Place by place -/

/-- The findings in two lists of places are those in one and those in the other. -/
theorem Place.report_append (ps qs : List Place) : report (ps ++ qs) = report ps ++ report qs := by
  simp [report]

/-- One place is reported when its count is not the configured one. -/
theorem Place.report_singleton (p : Place) :
    report [p] = expect p.index p.reason p.wording p.expected p.count := by
  unfold report expect
  by_cases h : p.expected = p.count
  · rw [List.filter_cons_of_neg (by simp [isOff, h]), if_pos h]
    rfl
  · rw [List.filter_cons_of_pos (by simp [isOff, h]), if_neg h]
    rfl

variable (spacing : Spacing)

/-- The blank lines before the first content. -/
theorem Ruled.beforeFirst_eq (h : Ruled s o c) (hi : IsContent s o c i)
    (hfirst : ∀ j, IsContent s o c j → i ≤ j) :
    Place.report ((sheet s o c).beforeFirst spacing o) =
      expect o "BeforeFirstContent" "before first content" spacing.beforeFirst
        (blankLines (s.line o) (s.line i)) := by
  have hlines (j : Nat) (hj : IsContent s o c j) : s.line i ≤ s.line j :=
    h.line_le (hfirst j hj) (Nat.le_of_lt hj.lt_closer)
  have hhead : (sheet s o c).contentLines.head? = some (s.line i) := by
    refine head?_eq_some_of_le ((pairwise_lines _).filter _)
      (h.mem_contentLines_iff.2 ⟨i, hi, rfl⟩) ?_
    intro line hline
    obtain ⟨j, hj, rfl⟩ := h.mem_contentLines_iff.1 hline
    exact hlines j hj
  have hblanks : (sheet s o c).blanks (s.line o) (s.line i) = blankLines (s.line o) (s.line i) :=
    blanks_eq fun j hj => .inr (hlines j hj)
  rw [Sheet.beforeFirst, hhead]
  exact (Place.report_singleton _).trans (congrArg _ hblanks)

/-- The blank lines after the last content. -/
theorem Ruled.afterLast_eq (h : Ruled s o c) (hi : IsContent s o c i) :
    Place.report ((sheet s o c).afterLast spacing c) = afterLast s spacing o c := by
  obtain ⟨k, hk, -, -, hmax, hbefore⟩ :=
    h.exists_contentLineBefore hi (Nat.lt_succ_of_lt hi.lt_closer) (Nat.le_refl _)
  have hlines (j : Nat) (hj : IsContent s o c j) : s.line j ≤ s.line k :=
    h.line_le (hmax j hj (Nat.lt_succ_of_lt hj.lt_closer)) (Nat.le_of_lt hk.lt_closer)
  have hlast : (sheet s o c).contentLines.getLast? = some (s.line k) := by
    refine getLast?_eq_some_of_le ((pairwise_lines _).filter _)
      (h.mem_contentLines_iff.2 ⟨k, hk, rfl⟩) ?_
    intro line hline
    obtain ⟨j, hj, rfl⟩ := h.mem_contentLines_iff.1 hline
    exact hlines j hj
  have hblanks : (sheet s o c).blanks (s.line k) (s.line c) = blankLines (s.line k) (s.line c) :=
    blanks_eq fun j hj => .inl (hlines j hj)
  rw [Sheet.afterLast, hlast, afterLast, hbefore]
  exact (Place.report_singleton _).trans (congrArg _ hblanks)

/-- No content stands between the last content before a tag and the tag. -/
theorem Ruled.blanks_before_tag (h : Ruled s o c) {k : Nat} (hk : IsContent s o c k)
    (hmax : ∀ j, IsContent s o c j → j < n → j ≤ k) :
    (sheet s o c).blanks (s.line k) (s.line n) = blankLines (s.line k) (s.line n) := by
  refine blanks_eq fun j hj => ?_
  by_cases hjn : j < n
  · exact .inl (h.line_le (hmax j hj hjn) (Nat.le_of_lt hk.lt_closer))
  · exact .inr (h.line_le (Nat.le_of_not_lt hjn) (Nat.le_of_lt hj.lt_closer))

/-- Content above a tag's line stands in front of the tag. -/
theorem Ruled.lt_of_line_lt (h : Ruled s o c) {j : Nat} (hj : IsContent s o c j)
    (hline : s.line j < s.line n) : j < n := by
  by_contra hle
  have := h.line_le (Nat.le_of_not_lt hle) (Nat.le_of_lt hj.lt_closer)
  omega

/-- The blank lines between a tag and the next one. -/
theorem Ruled.between_eq (h : Ruled s o c) (ht : IsContent s o c i) (hn : IsContent s o c n)
    (htag : s.isAt n .docTag = true) (hin : i < n) :
    Place.report ((sheet s o c).between spacing s.content (s.line i, i) (s.line n, n)) =
      betweenTags s spacing o i n := by
  obtain ⟨k, hk, hik, hkn, hmax, hbefore⟩ :=
    h.exists_contentLineBefore ht hin (Nat.le_succ_of_le (Nat.le_of_lt hn.lt_closer))
  have hlast : ((sheet s o c).contentLines.filter
      fun line => s.line i ≤ line ∧ line < s.line n).getLast? = some (s.line k) := by
    refine getLast?_eq_some_of_le (((pairwise_lines _).filter _).filter _) ?_ ?_
    · rw [List.mem_filter, decide_eq_true_iff]
      exact ⟨h.mem_contentLines_iff.2 ⟨k, hk, rfl⟩, h.line_le hik (Nat.le_of_lt hk.lt_closer),
        h.line_lt hk hn hkn htag⟩
    · intro line hline
      rw [List.mem_filter, decide_eq_true_iff, h.mem_contentLines_iff] at hline
      obtain ⟨⟨j, hj, rfl⟩, -, hlt⟩ := hline
      exact h.line_le (hmax j hj (h.lt_of_line_lt hj hlt)) (Nat.le_of_lt hk.lt_closer)
  have hblanks := h.blanks_before_tag hk hmax
  simp only [Sheet.between, betweenTags, hlast, hbefore]
  simp only [Option.toList_some, List.map_cons, List.map_nil, Option.getD_some]
  by_cases hname : s.content i = s.content n
  · rw [if_pos hname, if_pos hname, Place.report_singleton, hblanks]
  · rw [if_neg hname, if_neg hname, Place.report_singleton, hblanks]

/-- The blank lines between all neighbours in a list of tags. -/
theorem Ruled.betweenAll_eq (h : Ruled s o c) {tags : List Nat} (hsorted : tags.Pairwise (· < ·))
    (htags : ∀ tag ∈ tags, IsContent s o c tag ∧ s.isAt tag .docTag = true) :
    Place.report ((sheet s o c).betweenAll spacing s.content
      (tags.map fun tag => (s.line tag, tag))) = betweenAll s spacing o tags := by
  induction tags with
  | nil => rfl
  | cons tag tags ih =>
    cases tags with
    | nil => rfl
    | cons next tags =>
      obtain ⟨hlt, hsorted⟩ := List.pairwise_cons.1 hsorted
      obtain ⟨hnext, hat⟩ := htags next (by simp)
      have hone := h.between_eq spacing (htags tag List.mem_cons_self).1 hnext hat
        (hlt next List.mem_cons_self)
      have hrest := ih hsorted fun t ht => htags t (List.mem_cons_of_mem tag ht)
      rw [betweenAll, ← hone, ← hrest, ← Place.report_append]
      rfl

/-- The blank lines between the description and the first tag. -/
theorem Ruled.afterDescription_eq (h : Ruled s o c) (hi : IsContent s o c i)
    (hfirst : ∀ j, IsContent s o c j → i ≤ j) :
    Place.report ((sheet s o c).afterDescription spacing (sheet s o c).tagLines) =
      afterDescription s spacing o i (s.docTags o) := by
  rw [h.tagLines_eq]
  have hsorted := pairwise_docTags s o
  have hmem (t : Nat) := h.mem_docTags_iff (i := t)
  cases htags : s.docTags o with
  | nil => rfl
  | cons tag tags =>
    rw [htags] at hsorted hmem
    obtain ⟨htag, hat⟩ := (hmem tag).1 List.mem_cons_self
    have hleast (t : Nat) (ht : IsContent s o c t) (hat : s.isAt t .docTag = true) : tag ≤ t := by
      rcases List.mem_cons.1 ((hmem t).2 ⟨ht, hat⟩) with rfl | ht
      · exact Nat.le_refl t
      · exact Nat.le_of_lt ((List.pairwise_cons.1 hsorted).1 t ht)
    rw [List.map_cons, Sheet.afterDescription, afterDescription]
    by_cases hlt : i < tag
    · obtain ⟨k, hk, -, hkt, hmax, hbefore⟩ :=
        h.exists_contentLineBefore hi hlt (Nat.le_succ_of_le (Nat.le_of_lt htag.lt_closer))
      have hline := h.line_lt hk htag hkt hat
      have hlast :
          ((sheet s o c).textLines.filter (· < s.line tag)).getLast? = some (s.line k) := by
        refine getLast?_eq_some_of_le (((pairwise_lines _).filter _).filter _) ?_ ?_
        · rw [List.mem_filter, decide_eq_true_iff, h.mem_textLines_iff]
          refine ⟨⟨⟨k, hk, rfl⟩, fun t ht htat heq => ?_⟩, hline⟩
          have := h.line_le (hleast t ht htat) (Nat.le_of_lt ht.lt_closer)
          omega
        · intro line hmem
          rw [List.mem_filter, decide_eq_true_iff, h.mem_textLines_iff] at hmem
          obtain ⟨⟨⟨j, hj, rfl⟩, -⟩, hjlt⟩ := hmem
          exact h.line_le (hmax j hj (h.lt_of_line_lt hj hjlt)) (Nat.le_of_lt hk.lt_closer)
      rw [if_pos hlt, hlast, hbefore]
      exact (Place.report_singleton _).trans (congrArg _ (h.blanks_before_tag hk hmax))
    · -- The first content is the tag, so no text stands above it.
      have hnone : (sheet s o c).textLines.filter (· < s.line tag) = [] := by
        refine List.filter_eq_nil_iff.2 fun line hmem => ?_
        obtain ⟨⟨j, hj, rfl⟩, -⟩ := h.mem_textLines_iff.1 hmem
        have hle := Nat.le_trans (Nat.le_of_not_lt hlt) (hfirst j hj)
        simpa using h.line_le hle (Nat.le_of_lt hj.lt_closer)
      rw [if_neg hlt, hnone]
      rfl

end Places

/-! ## The findings of a doc comment -/

section Findings

variable {s : TokenStream} {o c : Nat}

/-- The search for the first content answers it, or there is none. -/
theorem Ruled.findNextBefore_cases (h : Ruled s o c) :
    (s.findNextBefore Kind.isDocContent o c = none ∧ ∀ i, ¬IsContent s o c i) ∨
      ∃ i, s.findNextBefore Kind.isDocContent o c = some i ∧ IsContent s o c i ∧
        ∀ j, IsContent s o c j → i ≤ j := by
  unfold TokenStream.findNextBefore
  cases hfound : s.findNext Kind.isDocContent o with
  | none =>
    refine .inl ⟨rfl, fun i hi => ?_⟩
    have hnone := TokenStream.findNext_eq_none_iff.1 hfound i (Nat.le_of_lt hi.opener_lt)
    rw [hi.content] at hnone
    cases hnone
  | some i =>
    obtain ⟨hle, hi, hfirst⟩ := TokenStream.findNext_eq_some_iff.1 hfound
    have hmin (j : Nat) (hj : IsContent s o c j) : i ≤ j := by
      by_contra hlt
      have hnone := hfirst j (Nat.le_of_lt hj.opener_lt) (by omega)
      rw [hj.content] at hnone
      cases hnone
    have hne : i ≠ o := by
      rintro rfl
      rw [TokenStream.has_of_isAt h.group.opener] at hi
      cases hi
    by_cases hlt : i < c
    · refine .inr ⟨i, ?_, ⟨by omega, hlt, hi⟩, hmin⟩
      rw [Option.filter_some, if_pos (by simpa using hlt)]
    · refine .inl ⟨?_, fun j hj => ?_⟩
      · rw [Option.filter_some, if_neg (by simpa using hlt)]
      · have hle := hmin j hj
        have hjc := hj.lt_closer
        omega

/-- In a doc comment of several lines with content, the findings are the wrong counts. -/
theorem Ruled.findings_eq (spacing : Spacing) {ctx : FileContext} (h : Ruled ctx.stream o c)
    (hlines : ctx.stream.line o ≠ ctx.stream.line c) (hcontent : ∃ i, IsContent ctx.stream o c i) :
    findings spacing ctx o =
      Place.report ((sheet ctx.stream o c).places spacing ctx.stream.content o c) := by
  rcases h.findNextBefore_cases with ⟨-, hnone⟩ | ⟨i, hfound, hi, hfirst⟩
  · obtain ⟨i, hi⟩ := hcontent
    exact absurd hi (hnone i)
  · have htags (t : Nat) (ht : t ∈ ctx.stream.docTags o) := h.mem_docTags_iff.1 ht
    simp only [findings, h.group.partner?.1, if_neg hlines, hfound]
    rw [Sheet.places, Place.report_append, Place.report_append, Place.report_append,
      h.beforeFirst_eq spacing hi hfirst, h.afterDescription_eq spacing hi hfirst,
      h.afterLast_eq spacing hi, h.tagLines_eq,
      h.betweenAll_eq spacing (pairwise_docTags ctx.stream o) htags]

/-- In a doc comment on one line or without content nothing is found. -/
theorem Ruled.findings_eq_nil (spacing : Spacing) {ctx : FileContext} (h : Ruled ctx.stream o c)
    (hplain : ctx.stream.line o = ctx.stream.line c ∨ ∀ i, ¬IsContent ctx.stream o c i) :
    findings spacing ctx o = [] := by
  simp only [findings, h.group.partner?.1]
  by_cases hlines : ctx.stream.line o = ctx.stream.line c
  · rw [if_pos hlines]
  · rw [if_neg hlines]
    rcases h.findNextBefore_cases with ⟨hnone, -⟩ | ⟨i, -, hi, -⟩
    · rw [hnone]
    · exact absurd hi (hplain.resolve_left hlines i)

/-- What the check reports of a file when it is asked at all openers of doc comments. -/
def violations (severity : Severity) (spacing : Spacing) (ctx : FileContext) : List Violation :=
  ((List.range ctx.stream.size).filter (ctx.stream.isAt · (.opens .docComment))).flatMap
    ((sniff severity spacing).process ctx)

/-- The check counts blank lines on the page. -/
structure CountsLines (severity : Severity) (spacing : Spacing) (ctx : FileContext) : Prop where
  /-- Every opener opens a doc comment. -/
  closed : ∀ o, ctx.stream.isAt o (.opens .docComment) = true → ∃ c, DocGroup ctx.stream o c
  /-- In a comment of several lines with content, each wrong count is found, and nothing else. -/
  counted : ∀ o c, DocGroup ctx.stream o c → ctx.stream.line o ≠ ctx.stream.line c →
    (∃ i, IsContent ctx.stream o c i) → findings spacing ctx o =
      Place.report ((sheet ctx.stream o c).places spacing ctx.stream.content o c)
  /-- In any other comment nothing is found. -/
  silent : ∀ o c, DocGroup ctx.stream o c →
    (ctx.stream.line o = ctx.stream.line c ∨ ∀ i, ¬IsContent ctx.stream o c i) →
      findings spacing ctx o = []
  /-- So what is reported of a file are the wrong counts in such comments. -/
  reported : ∀ v, v ∈ violations severity spacing ctx ↔
    ∃ o c, DocGroup ctx.stream o c ∧ ctx.stream.line o ≠ ctx.stream.line c ∧
      (∃ i, IsContent ctx.stream o c i) ∧
        ∃ p ∈ (sheet ctx.stream o c).places spacing ctx.stream.content o c,
          p.expected ≠ p.count ∧ v = (sniff severity spacing).violation ctx p.finding

/-- A finding is reported for a place whose count is off, and for no other. -/
theorem Place.mem_report_iff {places : List Place} {f : Finding} :
    f ∈ report places ↔ ∃ p ∈ places, p.expected ≠ p.count ∧ f = p.finding := by
  simp only [report, List.mem_map, List.mem_filter, isOff, bne_iff_ne]
  constructor
  · intro hparts
    obtain ⟨p, ⟨hp, hoff⟩, hf⟩ := hparts
    exact ⟨p, hp, hoff, hf.symm⟩
  · intro hparts
    obtain ⟨p, hp, hoff, hf⟩ := hparts
    exact ⟨p, ⟨hp, hoff⟩, hf.symm⟩

/-- **Blank lines are counted as they stand on the page.** -/
theorem countsLines_of_ofSource (severity : Severity) (spacing : Spacing) {ctx : FileContext}
    (h : TokenStream.ofSource ctx.source = .ok ctx.stream) : CountsLines severity spacing ctx := by
  have hclosed (o : Nat) (ho : ctx.stream.isAt o (.opens .docComment) = true) :
      ∃ c, DocGroup ctx.stream o c := by
    obtain ⟨ls, hlaid⟩ := TokenStream.exists_laidOut h
    obtain ⟨before, body, after, rfl, -, hle, hlt⟩ :=
      hlaid.exists_doc (TokenStream.has_of_isAt ho _)
    obtain rfl := hlaid.docGroup.eq_opener ho hle hlt
    exact ⟨_, hlaid.docGroup⟩
  constructor
  case closed => exact hclosed
  case counted =>
    intro o c hgroup hlines hcontent
    exact (ruled_of_ofSource h hgroup).findings_eq spacing hlines hcontent
  case silent =>
    intro o c hgroup hplain
    exact (ruled_of_ofSource h hgroup).findings_eq_nil spacing hplain
  case reported =>
    intro v
    simp only [violations, List.mem_flatMap, List.mem_filter, List.mem_range]
    constructor
    · intro hparts
      obtain ⟨o, ⟨-, ho⟩, hv⟩ := hparts
      obtain ⟨f, hf, rfl⟩ := List.mem_map.1 hv
      obtain ⟨c, hgroup⟩ := hclosed o ho
      have hruled := ruled_of_ofSource h hgroup
      have hlines : ctx.stream.line o ≠ ctx.stream.line c := by
        intro hline
        have hnil : f ∈ ([] : List Finding) := hruled.findings_eq_nil spacing (.inl hline) ▸ hf
        cases hnil
      have hcontent : ∃ i, IsContent ctx.stream o c i := by
        by_contra hnone
        have hnil : f ∈ ([] : List Finding) :=
          hruled.findings_eq_nil spacing (.inr (not_exists.1 hnone)) ▸ hf
        cases hnil
      have hf : f ∈ findings spacing ctx o := hf
      rw [hruled.findings_eq spacing hlines hcontent, Place.mem_report_iff] at hf
      obtain ⟨p, hp, hoff, rfl⟩ := hf
      exact ⟨o, c, hgroup, hlines, hcontent, p, hp, hoff, rfl⟩
    · intro hparts
      obtain ⟨o, c, hgroup, hlines, hcontent, p, hp, hoff, hv⟩ := hparts
      have hfindings := (ruled_of_ofSource h hgroup).findings_eq spacing hlines hcontent
      refine ⟨o, ⟨TokenStream.lt_size_of_has (TokenStream.has_of_isAt hgroup.opener fun _ => true),
        hgroup.opener⟩, List.mem_map.2 ⟨p.finding, ?_, hv.symm⟩⟩
      show p.finding ∈ findings spacing ctx o
      rw [hfindings, Place.mem_report_iff]
      exact ⟨p, hp, hoff, rfl⟩

/-- A comment with text on its opener's line and a tag on its closer's line, with line ends of both
forms: the second tag follows the content of the first after two blank lines. -/
theorem countsLines_of_ofSource_edges :
    ∃ ctx : FileContext,
      ctx.source = "<?php
/** a
 *
 * b
 * @c d
 * e

 *
 * @c */".toList ∧
      TokenStream.ofSource ctx.source = .ok ctx.stream ∧
      (findings {} ctx 1).map Finding.index = [16, 32] ∧ CountsLines .error {} ctx := by
  obtain ⟨ctx, hsource, hstream, -, hfindings⟩ : ∃ ctx : FileContext,
      ctx.source = "<?php
/** a
 *
 * b
 * @c d
 * e

 *
 * @c */".toList ∧
      TokenStream.ofSource ctx.source = .ok ctx.stream ∧
      ctx.symbols = SymbolTable.ofStreams [ctx.stream] ∧
      (findings {} ctx 1).map Finding.index = [16, 32] :=
    FileContext.exists_context (by decide +kernel)
  exact ⟨ctx, hsource, hstream, hfindings, countsLines_of_ofSource .error {} hstream⟩

end Findings

end PhpLint.DocCommentSpacing

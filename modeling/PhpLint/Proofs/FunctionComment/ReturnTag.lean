import PhpLint.Proofs.DocCommentSpacing.BlankLines
import PhpLint.Proofs.FunctionComment.Inheritdoc
import PhpLint.Proofs.Lexing.TagLine

/-!
# The type behind a return tag

The type that a return tag says is read two tokens behind the tag, where the text of the tag's line
stands as a rule.  It stands elsewhere if the white space behind the tag is none that the comment takes
for a space, such as a no-break space, and the token is no text of that line if the line ends right behind
the tag and the next one begins with its text.  In all other comments the findings are those about the
first text on the tag's line (`filter_findings_iff`).
-/

namespace PhpLint.FunctionComment

open TokenStream (DocGroup TagLine)
open Comment (isDocSpaceChar)
open DocCommentSpacing (ruled_of_ofSource)

variable {source : Text} {s : TokenStream} {o c k i : Nat}

/-! ## The text of a line -/

/-- The first text on a line of the doc comment from `o` to `c`. -/
def lineText? (s : TokenStream) (o c line : Nat) : Option Nat :=
  (List.range' (o + 1) (c - (o + 1))).find? fun j => s.isAt j .docText && s.line j == line

/-- A line on which no text stands has no first text. -/
theorem lineText?_eq_none {line : Nat}
    (h : ∀ j, o < j → j < c → s.isAt j .docText = true → s.line j ≠ line) :
    lineText? s o c line = none := by
  rw [lineText?, List.find?_eq_none]
  intro j hj htext
  obtain ⟨hoj, hjc⟩ := List.mem_range'_1.1 hj
  rw [Bool.and_eq_true, beq_iff_eq] at htext
  exact h j hoj (by omega) htext.1 htext.2

/-- The first text on a line is a text with none before it there. -/
theorem lineText?_eq_some {j : Nat} (hoj : o < j) (hjc : j < c) (htext : s.isAt j .docText = true)
    (hfirst : ∀ j', o < j' → j' < j → s.isAt j' .docText = true → s.line j' ≠ s.line j) :
    lineText? s o c (s.line j) = some j := by
  rw [lineText?, List.find?_range'_eq_some]
  refine ⟨by rw [htext, beq_self_eq_true]; rfl, List.mem_range'_1.2 (by omega), fun j' hoj' hj' => ?_⟩
  cases htext' : s.isAt j' .docText with
  | false => rfl
  | true => simpa using hfirst j' hoj' hj' htext'

/-- Behind the closer of a doc comment stands no text. -/
theorem isAt_docText_succ_closer (hs : TokenStream.ofSource source = .ok s) (hdoc : DocGroup s o c) :
    s.isAt (c + 1) .docText = false := by
  by_contra htext
  rw [Bool.not_eq_false] at htext
  obtain ⟨⟨o', c'⟩, ⟨hdoc', hle, hlt⟩, -⟩ :=
    (TokenStream.docGrouped_ofSource hs).covered (c + 1) (TokenStream.has_of_isAt htext _)
  dsimp only at hdoc' hle hlt
  have hne : o' ≠ c + 1 := by
    rintro rfl
    cases TokenStream.eq_of_isAt hdoc'.opener htext
  have hlast := (hdoc.unique hdoc' (k := c) ⟨Nat.le_of_lt hdoc.lt, Nat.le_refl c⟩ (by omega)).2
  omega

/-- Where the first text on the line of the tag at `k` stands: nowhere, two tokens behind the tag, or right
behind it. -/
inductive LineTextPlace (s : TokenStream) (k : Nat) : Option Nat → Prop
  | none (loose : s.isAt (k + 1) .docText = false)
      (below : s.isAt (k + 2) .docText = true → '\n' ∈ s.content (k + 1)) : LineTextPlace s k none
  | second (loose : s.isAt (k + 1) .docText = false) (text : s.isAt (k + 2) .docText = true)
      (feed : '\n' ∉ s.content (k + 1)) : LineTextPlace s k (some (k + 2))
  | first (text : s.isAt (k + 1) .docText = true) (next : s.isAt (k + 2) .docText = false) :
      LineTextPlace s k (some (k + 1))

theorem not_isAt_docText {j : Nat} {kind : Kind} (h : s.isAt j kind = true) (hkind : kind ≠ .docText) :
    s.isAt j .docText = false :=
  Bool.eq_false_iff.2 fun htext => hkind (TokenStream.eq_of_isAt h htext)

/-- Two tokens of which only one is text are not the same. -/
theorem ne_of_isAt_docText {j j' : Nat} (h : s.isAt j .docText = false)
    (h' : s.isAt j' .docText = true) : j ≠ j' := by
  rintro rfl
  rw [h] at h'
  cases h'

section Tag

variable (hs : TokenStream.ofSource source = .ok s) (hdoc : DocGroup s o c) (hok : o < k) (hkc : k < c)
  (htag : s.isAt k .docTag = true)
include hs hdoc hok hkc htag

/-- Text on a tag's line stands behind the tag, and the line does not end in between. -/
theorem feed_not_mem_of_line_eq {j : Nat} (hoj : o < j) (hjc : j < c)
    (htext : s.isAt j .docText = true) (hline : s.line j = s.line k) :
    k < j ∧ ∀ m, k ≤ m → m < j → '\n' ∉ s.content m := by
  have hruled := ruled_of_ofSource hs hdoc
  have hsize := TokenStream.lt_size_of_has (TokenStream.has_of_isAt hdoc.closer fun _ => true)
  have hkj : k < j := by
    by_contra hle
    rcases Nat.lt_or_eq_of_le (Nat.le_of_not_lt hle) with hlt | rfl
    · have hless := hruled.line_lt ⟨hoj, hjc, TokenStream.has_of_isAt htext _⟩
        ⟨hok, hkc, TokenStream.has_of_isAt htag _⟩ hlt htag
      omega
    · cases TokenStream.eq_of_isAt htag htext
  refine ⟨hkj, fun m hkm hmj hfeed => ?_⟩
  have hcount := List.count_pos_iff.2 hfeed
  have hsucc := TokenStream.line_succ hs (i := m) (by omega)
  have hbefore := hruled.line_le hkm (by omega)
  have hafter := hruled.line_le (Nat.succ_le_of_lt hmj) (Nat.le_of_lt hjc)
  rw [Nat.succ_eq_add_one] at hafter
  omega

/-- A tag does not end its line. -/
theorem line_succ_of_docTag : s.line (k + 1) = s.line k := by
  have hsize := TokenStream.lt_size_of_has (TokenStream.has_of_isAt hdoc.closer fun _ => true)
  obtain ⟨t, ht⟩ := TokenStream.exists_token? (s := s) (i := k) (by omega)
  have hfeed : '\n' ∉ s.content k := by
    intro hfeed
    rw [TokenStream.content_of_token? ht] at hfeed
    have hkind := ((TokenStream.docGrouped_ofSource hs).feeds o c k t hdoc (Nat.le_of_lt hok)
      (Nat.le_of_lt hkc) ht hfeed).1
    rw [TokenStream.isAt_of_token? ht, hkind] at htag
    cases htag
  rw [TokenStream.line_succ hs (by omega), List.count_eq_zero.2 hfeed, Nat.add_zero]

/-- The first text on a tag's line stands in one of the two places behind the tag, or there is none. -/
theorem lineTextPlace_of_tagLine (hline : TagLine s k c) :
    LineTextPlace s k (lineText? s o c (s.line k)) := by
  -- Text on the line stands behind the tag, and no line feed in between.
  have hnone (h : ∀ j, k < j → j < c → s.isAt j .docText = true →
      ∃ m, k < m ∧ m < j ∧ '\n' ∈ s.content m) : lineText? s o c (s.line k) = none := by
    refine lineText?_eq_none fun j hoj hjc htext hline => ?_
    obtain ⟨hkj, hfeed⟩ := feed_not_mem_of_line_eq hs hdoc hok hkc htag hoj hjc htext hline
    obtain ⟨m, hkm, hmj, hmem⟩ := h j hkj hjc htext
    exact hfeed m (Nat.le_of_lt hkm) hmj hmem
  have hsome {j : Nat} (hkj : k < j) (hjc : j < c) (htext : s.isAt j .docText = true)
      (hline : s.line j = s.line k) (hbetween : ∀ j', k < j' → j' < j → s.isAt j' .docText = false) :
      lineText? s o c (s.line k) = some j := by
    rw [← hline]
    refine lineText?_eq_some (by omega) hjc htext fun j' hoj' hj' htext' hline' => ?_
    have hkj' := (feed_not_mem_of_line_eq hs hdoc hok hkc htag hoj' (by omega) htext'
      (hline'.trans hline)).1
    rw [hbetween j' hkj' hj'] at htext'
    cases htext'
  have hsize := TokenStream.lt_size_of_has (TokenStream.has_of_isAt hdoc.closer fun _ => true)
  have hsucc := line_succ_of_docTag hs hdoc hok hkc htag
  cases hline with
  | ends closer =>
    subst closer
    rw [hnone fun j hkj hjc => by omega]
    refine .none (not_isAt_docText hdoc.closer (by decide)) fun htext => ?_
    rw [isAt_docText_succ_closer hs hdoc] at htext
    cases htext
  | feed space feed =>
    have hloose := not_isAt_docText space (by decide)
    rw [hnone fun j hkj hjc htext => ⟨k + 1, Nat.lt_succ_self k,
      Nat.lt_of_le_of_ne hkj (ne_of_isAt_docText hloose htext), feed⟩]
    exact .none hloose fun _ => feed
  | blank space next =>
    have hloose := not_isAt_docText space (by decide)
    have hbehind : s.isAt (k + 2) .docText = false := by
      rcases next with rfl | ⟨space', -⟩
      · exact not_isAt_docText hdoc.closer (by decide)
      · exact not_isAt_docText space' (by decide)
    rw [hnone fun j hkj hjc htext => ?_]
    · exact .none hloose fun htext => by rw [hbehind] at htext; cases htext
    · have hj := ne_of_isAt_docText hloose htext
      have hj' := ne_of_isAt_docText hbehind htext
      rcases next with rfl | ⟨-, feed⟩
      · omega
      · exact ⟨k + 2, by omega, by omega, feed⟩
  | described space feed lt text =>
    have hloose := not_isAt_docText space (by decide)
    have hline : s.line (k + 2) = s.line k := by
      rw [TokenStream.line_succ hs (i := k + 1) (by omega), List.count_eq_zero.2 feed, hsucc,
        Nat.add_zero]
    rw [hsome (by omega) lt text hline fun j hkj hj => by rwa [show j = k + 1 by omega]]
    exact .second hloose text feed
  | tied lt text next =>
    rw [hsome (Nat.lt_succ_self k) lt text hsucc fun j hkj hj => by omega]
    refine .first text ?_
    rcases next with rfl | space
    · exact not_isAt_docText hdoc.closer (by decide)
    · exact not_isAt_docText space (by decide)

end Tag

/-! ## Findings about the type -/

/-- The findings about the type that the return tag at `k` says of the function at `i`, if it says one. -/
def typeFindings (s : TokenStream) (i k : Nat) : Option Text → List Finding
  | none =>
    [{ index := k, reason := "MissingReturnType",
       message := "Return type missing for @return tag in function comment" }]
  | some text =>
    match s.bodyCloser? i with
    | none => []
    | some stop => bodyFindings (ReturnType.ofText text) s k (returnsFrom s stop (i + 1))

/-- The reasons of findings about return tags. -/
def returnReasons : List String :=
  ["DuplicateReturn", "MissingReturn", "MissingReturnType"] ++ bodyReasons

/-- The finding is about a return tag. -/
def isAboutReturn (f : Finding) : Bool := f.reason ∈ returnReasons

/-- A body is never said to miss a type. -/
theorem typeFindings_none_ne (s : TokenStream) (i k : Nat) (text : Text) :
    typeFindings s i k none ≠ typeFindings s i k (some text) := by
  simp only [typeFindings]
  split
  · simp
  · intro h
    have hreason := reason_mem_bodyReasons (h ▸ List.mem_singleton_self _)
    simp [bodyReasons] at hreason

/-- Whatever is found about a type is about a return tag. -/
theorem isAboutReturn_of_mem_typeFindings {type : Option Text} {f : Finding}
    (h : f ∈ typeFindings s i k type) : isAboutReturn f = true := by
  rw [isAboutReturn, decide_eq_true_eq]
  cases type with
  | none => simp [List.mem_singleton.1 h, returnReasons]
  | some text =>
    simp only [typeFindings] at h
    split at h
    · cases h
    · exact List.mem_append_right _ (reason_mem_bodyReasons h)

/-- The function at `i` has a name of its own, and right above it a doc comment from `o` to `c` that inherits
nothing and has one return tag, at `k`. -/
structure ReturnTagged (s : TokenStream) (i o c k : Nat) : Prop where
  named : ∃ name, s.declaredName? i = some name ∧ isSpecial name = false
  above : commentEnd? s i = some c
  closer : s.isAt c (.closes .docComment) = true
  opener : s.partner? c = some o
  own : Text.includes "@inheritdoc".toList (s.textBetween o c) = false
  only : (s.docTags o).filter (s.content · == "@return".toList) = [k]

/-- What it takes to have one return tag is put together from searches in the stream. -/
theorem returnTagged_iff : ReturnTagged s i o c k ↔
    (s.declaredName? i).any (!isSpecial ·) = true ∧ commentEnd? s i = some c ∧
      s.isAt c (.closes .docComment) = true ∧ s.partner? c = some o ∧
      Text.includes "@inheritdoc".toList (s.textBetween o c) = false ∧
      (s.docTags o).filter (s.content · == "@return".toList) = [k] := by
  rw [Option.any_eq_true]
  simp only [Bool.not_eq_true']
  exact ⟨fun ⟨hnamed, habove, hcloser, hopener, hown, honly⟩ =>
      ⟨hnamed, habove, hcloser, hopener, hown, honly⟩,
    fun ⟨hnamed, habove, hcloser, hopener, hown, honly⟩ =>
      ⟨hnamed, habove, hcloser, hopener, hown, honly⟩⟩

instance (s : TokenStream) (i o c k : Nat) : Decidable (ReturnTagged s i o c k) :=
  decidable_of_iff _ returnTagged_iff.symm

/-- Behind the tag at `k` stands white space that doc comments take for a space, if any, and where it ends
the tag's line, the next line does not begin with text. -/
structure FollowedPlainly (s : TokenStream) (k : Nat) : Prop where
  common : ∀ d ∈ (s.content (k + 1)).head?, Unicode.isSpace d = true → isDocSpaceChar d = true
  ownLine : '\n' ∈ s.content (k + 1) → s.isAt (k + 2) .docText = false

/-- What stands behind a tag can be looked at. -/
theorem followedPlainly_iff_all {s : TokenStream} {k : Nat} : FollowedPlainly s k ↔
    (s.content (k + 1)).head?.all (fun d => !Unicode.isSpace d || isDocSpaceChar d) = true ∧
      ('\n' ∈ s.content (k + 1) → s.isAt (k + 2) .docText = false) := by
  have hcommon : (∀ d ∈ (s.content (k + 1)).head?, Unicode.isSpace d = true → isDocSpaceChar d = true) ↔
      (s.content (k + 1)).head?.all (fun d => !Unicode.isSpace d || isDocSpaceChar d) = true := by
    cases (s.content (k + 1)).head? <;> simp [or_iff_not_imp_left]
  rw [← hcommon]
  exact ⟨fun h => ⟨h.common, h.ownLine⟩, fun ⟨hcommon, hown⟩ => ⟨hcommon, hown⟩⟩

instance (s : TokenStream) (k : Nat) : Decidable (FollowedPlainly s k) :=
  decidable_of_iff _ followedPlainly_iff_all.symm

namespace ReturnTagged

/-- The comment of such a function is a doc comment of the source. -/
theorem docGroup (h : ReturnTagged s i o c k) (hs : TokenStream.ofSource source = .ok s) :
    DocGroup s o c := by
  obtain ⟨⟨o', c'⟩, ⟨hdoc, hle, hlt⟩, -⟩ :=
    (TokenStream.docGrouped_ofSource hs).covered c (TokenStream.has_of_isAt h.closer _)
  dsimp only at hdoc hle hlt
  have hopener : o' ≠ c := by
    rintro rfl
    cases TokenStream.eq_of_isAt hdoc.opener h.closer
  obtain rfl : c = c' := by
    by_contra hne
    have hinner := hdoc.inner c (by omega) (by omega)
    rw [DocGroup.not_inner_of_closer h.closer] at hinner
    cases hinner
  obtain rfl := Option.some.inj (hdoc.partner?.2.symm.trans h.opener)
  exact hdoc

/-- The return tag is a tag inside of the comment. -/
theorem docTag (h : ReturnTagged s i o c k) (hs : TokenStream.ofSource source = .ok s) :
    o < k ∧ k < c ∧ s.isAt k .docTag = true := by
  have hdoc := h.docGroup hs
  have hmem : k ∈ (s.docTags o).filter (s.content · == "@return".toList) := by
    rw [h.only]
    exact List.mem_singleton_self k
  have htag := (List.mem_filter.1 hmem).1
  rw [TokenStream.docTags, hdoc.partner?.1, List.mem_filter, List.mem_range'_1] at htag
  obtain ⟨⟨hle, hlt⟩, hkind⟩ := htag
  have hopener : o ≠ k := by
    rintro rfl
    cases TokenStream.eq_of_isAt hdoc.opener hkind
  exact ⟨Nat.lt_of_le_of_ne hle hopener, by omega, hkind⟩

end ReturnTagged

/-- With one return tag only its type is judged. -/
theorem returnFindings_eq (h : ReturnTagged s i o c k) :
    returnFindings s i c (s.docTags o) = typeFindings s i k (tagText? s k) := by
  obtain ⟨name, hname, hspecial⟩ := h.named
  unfold returnFindings
  rw [h.only, hname, Option.getD_some, hspecial]
  dsimp only
  rw [if_neg Bool.false_ne_true]
  cases tagText? s k <;> rfl

/-- The findings about the return tag of a function are those about the type two tokens behind the tag. -/
theorem filter_findings_eq {testClasses : List Text} {ctx : FileContext}
    (h : ReturnTagged ctx.stream i o c k) :
    (findings testClasses ctx i).filter isAboutReturn =
      typeFindings ctx.stream i k (tagText? ctx.stream k) := by
  obtain ⟨name, hname, -⟩ := h.named
  have hclosure : ctx.stream.isClosure i = false := by
    rw [TokenStream.isClosure, hname, Option.isNone_some, Bool.and_false]
  have hcomment : ctx.stream.isAt c .comment = false := by
    rw [TokenStream.isAt, TokenStream.isAt_iff.1 h.closer]
    rfl
  have hsee : (seeFindings ctx.stream c (ctx.stream.docTags o)).filter isAboutReturn = [] := by
    rw [List.filter_eq_nil_iff, seeFindings]
    intro f hf
    obtain ⟨tag, -, rfl⟩ := List.mem_map.1 hf
    simp [isAboutReturn, returnReasons, bodyReasons]
  have htype : (typeFindings ctx.stream i k (tagText? ctx.stream k)).filter isAboutReturn =
      typeFindings ctx.stream i k (tagText? ctx.stream k) :=
    List.filter_eq_self.2 fun f hf => isAboutReturn_of_mem_typeFindings hf
  have hdoc : (docFindings ctx i o c).filter isAboutReturn =
      typeFindings ctx.stream i k (tagText? ctx.stream k) := by
    rw [docFindings, h.own, if_neg Bool.false_ne_true, returnFindings_eq h, List.filter_append, hsee,
      htype, List.nil_append]
  unfold findings
  dsimp only
  rw [hclosure, if_neg Bool.false_ne_true, h.above]
  dsimp only
  rw [hcomment, if_neg Bool.false_ne_true, h.opener, List.filter_append, hdoc]
  split
  · rfl
  · rfl

/-- What stands two tokens behind the tag is taken for the type if it is text. -/
theorem tagText?_eq (hs : TokenStream.ofSource source = .ok s) (k : Nat) :
    tagText? s k = if s.isAt (k + 2) .docText then some (s.content (k + 2)) else none := by
  obtain ⟨ls, hlaid⟩ := TokenStream.exists_laidOut hs
  rw [tagText?, TokenStream.isAt, TokenStream.kind?, TokenStream.content]
  cases ht : s.token? (k + 2) with
  | none => rfl
  | some t =>
    have hcontent : t.content ≠ [] :=
      hlaid.reads.text_ne_nil _ (List.mem_of_getElem? (hlaid.lexeme_eq ht))
    simp [hcontent]

/-- In a source the tag is followed plainly exactly where the token behind it is no text, and text two
tokens behind it is on its line. -/
theorem followedPlainly_iff (hs : TokenStream.ofSource source = .ok s) (h : ReturnTagged s i o c k) :
    FollowedPlainly s k ↔ s.isAt (k + 1) .docText = false ∧
      ('\n' ∈ s.content (k + 1) → s.isAt (k + 2) .docText = false) := by
  obtain ⟨hok, hkc, htag⟩ := h.docTag hs
  rw [← TokenStream.isDocSpaceChar_iff_of_docTag hs (h.docGroup hs) hok hkc htag]
  exact ⟨fun hplain => ⟨hplain.common, hplain.ownLine⟩, fun ⟨hcommon, hown⟩ => ⟨hcommon, hown⟩⟩

/-- **The type is the first text on the tag's line**, and its absence is what is reported, exactly where the
tag is followed plainly. -/
theorem filter_findings_iff {testClasses : List Text} {ctx : FileContext}
    (hs : TokenStream.ofSource ctx.source = .ok ctx.stream) (h : ReturnTagged ctx.stream i o c k) :
    (findings testClasses ctx i).filter isAboutReturn =
        typeFindings ctx.stream i k
          ((lineText? ctx.stream o c (ctx.stream.line k)).map ctx.stream.content) ↔
      FollowedPlainly ctx.stream k := by
  obtain ⟨hok, hkc, htag⟩ := h.docTag hs
  have hdoc := h.docGroup hs
  have hplace := lineTextPlace_of_tagLine hs hdoc hok hkc htag
    (TokenStream.tagLine_ofSource hs hdoc hok hkc htag)
  rw [filter_findings_eq h, tagText?_eq hs, followedPlainly_iff hs h]
  generalize lineText? ctx.stream o c (ctx.stream.line k) = text? at hplace
  cases hplace with
  | none loose below =>
    rw [Option.map_none]
    split
    · next htext =>
      refine iff_of_false (typeFindings_none_ne _ _ _ _).symm fun hplain => ?_
      rw [hplain.2 (below htext)] at htext
      cases htext
    · next htext => exact iff_of_true rfl ⟨loose, fun _ => Bool.eq_false_iff.2 htext⟩
  | second loose text feed =>
    rw [if_pos text, Option.map_some]
    exact iff_of_true rfl ⟨loose, fun hfeed => absurd hfeed feed⟩
  | first text next =>
    rw [next, if_neg Bool.false_ne_true, Option.map_some]
    refine iff_of_false (typeFindings_none_ne _ _ _ _) fun hplain => ?_
    rw [hplain.1] at text
    cases text

/-- Two blanks behind the tag, and a description behind the type. -/
theorem filter_findings_iff_described :
    ∃ ctx : FileContext,
      ctx.source =
        "<?php\n/**\n * @return  int the count\n */\nfunction f() \x7b return; \x7d".toList ∧
      TokenStream.ofSource ctx.source = .ok ctx.stream ∧ ReturnTagged ctx.stream 13 1 11 6 ∧
      FollowedPlainly ctx.stream 6 ∧
      lineText? ctx.stream 1 11 (ctx.stream.line 6) = some 8 ∧
      ctx.stream.content 8 = "int the count".toList ∧
      (findings [] ctx 13).filter isAboutReturn =
        typeFindings ctx.stream 13 6 (some "int the count".toList) := by
  have hcontext : ∃ ctx : FileContext,
      ctx.source =
        "<?php\n/**\n * @return  int the count\n */\nfunction f() \x7b return; \x7d".toList ∧
      TokenStream.ofSource ctx.source = .ok ctx.stream ∧
      ctx.symbols = SymbolTable.ofStreams [ctx.stream] ∧
      (ReturnTagged ctx.stream 13 1 11 6 ∧ FollowedPlainly ctx.stream 6 ∧
        lineText? ctx.stream 1 11 (ctx.stream.line 6) = some 8 ∧
        ctx.stream.content 8 = "int the count".toList) :=
    FileContext.exists_context (by decide +kernel)
  obtain ⟨ctx, hsource, hstream, -, htagged, hplain, htext, hcontent⟩ := hcontext
  have hfindings : (findings [] ctx 13).filter isAboutReturn =
      typeFindings ctx.stream 13 6
        ((lineText? ctx.stream 1 11 (ctx.stream.line 6)).map ctx.stream.content) :=
    (filter_findings_iff hstream htagged).2 hplain
  rw [htext, Option.map_some, hcontent] at hfindings
  exact ⟨ctx, hsource, hstream, htagged, hplain, htext, hcontent, hfindings⟩

/-- Behind a no-break space the type is said to be missing, and at the end of a line the text of the next
line is taken for the type. -/
theorem findings_stray_type :
    (∃ ctx : FileContext,
      ctx.source = "<?php\n/**\n * @return\u00a0int\n */\nfunction f() \x7b return 1; \x7d".toList ∧
      TokenStream.ofSource ctx.source = .ok ctx.stream ∧
      ctx.symbols = SymbolTable.ofStreams [ctx.stream] ∧
      (ReturnTagged ctx.stream 12 1 10 6 ∧
        lineText? ctx.stream 1 10 (ctx.stream.line 6) = some 7 ∧
        (findings [] ctx 12).map Finding.reason = ["MissingReturnType"])) ∧
    ∃ ctx : FileContext,
      ctx.source = "<?php\n/**\n@return\nint\n */\nfunction f() \x7b return 1; \x7d".toList ∧
      TokenStream.ofSource ctx.source = .ok ctx.stream ∧
      ctx.symbols = SymbolTable.ofStreams [ctx.stream] ∧
      (ReturnTagged ctx.stream 10 1 8 3 ∧
        lineText? ctx.stream 1 8 (ctx.stream.line 3) = none ∧ findings [] ctx 10 = []) :=
  ⟨FileContext.exists_context (by decide +kernel), FileContext.exists_context (by decide +kernel)⟩

end PhpLint.FunctionComment

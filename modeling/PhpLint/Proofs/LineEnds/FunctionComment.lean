import Mathlib.Data.List.Find
import PhpLint.Proofs.LineEnds.Finding
import PhpLint.Sniff.FunctionComment

/-!
# Comments of functions in mirrored streams

The comment of a function is the image of its comment in the other stream and has the images of its
tags.  The statements that return correspond too: the cursor that collects them jumps over the same
bodies, and the line ends that closing tags leave are no statements.
-/

namespace PhpLint.FunctionComment

open TokenStream (Mirrors)

variable {s s' : TokenStream} {φ : Nat → Nat}

/-! ## The comment above a function -/

/-- The token that ends the comment, if the nearest one before a function does. -/
def lastBefore (s : TokenStream) (nearest : Nat) : Nat :=
  if s.isAt nearest .comment then
    match s.findBefore hidesComment nearest with
    | some previous => if s.line previous = s.line nearest then previous else nearest
    | none => nearest
  else nearest

/-- The comment of a function ends with the token that may end it, if that one closes a doc comment or is
a comment of another style. -/
theorem commentEnd?_eq (s : TokenStream) (i : Nat) :
    commentEnd? s i = (s.findBefore hidesComment i).bind fun nearest =>
      if s.isAt (lastBefore s nearest) (.closes .docComment) || s.isAt (lastBefore s nearest) .comment
      then some (lastBefore s nearest) else none := rfl

/-- What stands before a function, white space and modifiers apart, stands at the image. -/
theorem findBefore_hidesComment_image (h : Mirrors s s' φ) {i : Nat}
    (hi : s.has i (· != .openTag) = true) :
    s'.findBefore hidesComment (φ i) = (s.findBefore hidesComment i).map φ :=
  h.findBefore_image (fun _ => rfl) fun _ => hi

/-- The token that may end the comment stands at the image. -/
theorem lastBefore_image (h : Mirrors s s' φ) (nearest : Nat) :
    lastBefore s' (φ nearest) = φ (lastBefore s nearest) := by
  unfold lastBefore
  rw [h.isAt_image]
  by_cases hcomment : s.isAt nearest .comment = true
  · have hopen := Mirrors.not_openTag_of_isAt hcomment (by decide)
    rw [if_pos hcomment, if_pos hcomment, findBefore_hidesComment_image h hopen]
    cases hprevious : s.findBefore hidesComment nearest with
    | none => rfl
    | some previous =>
      dsimp only [Option.map_some]
      rw [h.line_image (h.inside_of_findBefore rfl hopen hprevious),
        h.line_image_of_isAt hcomment (by decide)]
      split <;> rfl
  · rw [if_neg hcomment, if_neg hcomment]

/-- The comment of a function ends at the image. -/
theorem commentEnd?_image (h : Mirrors s s' φ) {i : Nat} (hi : s.has i (· != .openTag) = true) :
    commentEnd? s' (φ i) = (commentEnd? s i).map φ := by
  rw [commentEnd?_eq, commentEnd?_eq, findBefore_hidesComment_image h hi]
  cases s.findBefore hidesComment i with
  | none => rfl
  | some nearest =>
    simp only [Option.map_some, Option.bind_some, lastBefore_image h, h.isAt_image]
    split <;> rfl

/-- A comment above a function ends with a doc comment's closer or is of another style. -/
theorem isAt_of_commentEnd? {i closer : Nat} (h : commentEnd? s i = some closer) :
    s.isAt closer (.closes .docComment) = true ∨ s.isAt closer .comment = true := by
  rw [commentEnd?_eq] at h
  obtain ⟨nearest, -, h⟩ := Option.bind_eq_some_iff.1 h
  obtain ⟨hends, heq⟩ := Option.ite_none_right_eq_some.1 h
  obtain rfl := Option.some.inj heq
  exact (Bool.or_eq_true _ _).mp hends

/-! ## Tests -/

/-- The modifiers of a function are read back from the code before it. -/
theorem modifiersBefore_eq (s : TokenStream) (i : Nat) :
    modifiersBefore s i =
      match s.previousSignificant i with
      | none => []
      | some previous =>
        match s.kind? previous with
        | some k => if k.isModifier then k :: modifiersBefore s previous else []
        | none => [] := by
  rw [modifiersBefore]
  split
  · next hnone => rw [hnone]
  · next previous hprevious =>
    cases hkind : s.kind? previous with
    | none => simp only [hprevious, hkind]
    | some k => simp only [hprevious, hkind]

/-- The modifiers of a function are the same. -/
theorem modifiersBefore_image (h : Mirrors s s' φ) {i : Nat} (hi : s.has i (· != .openTag) = true) :
    modifiersBefore s' (φ i) = modifiersBefore s i := by
  induction i using Nat.strongRecOn with
  | ind i ih =>
    rw [modifiersBefore_eq, modifiersBefore_eq s, h.previousSignificant_image hi]
    cases hprevious : s.previousSignificant i with
    | none => rfl
    | some previous =>
      dsimp only [Option.map_some]
      rw [h.kind?_image]
      cases hkind : s.kind? previous with
      | none => rfl
      | some k =>
        dsimp only
        by_cases hmodifier : k.isModifier = true
        · have hhas : s.has previous Kind.isModifier = true := by
            rw [TokenStream.has, hkind, Option.any_some, hmodifier]
          rw [if_pos hmodifier, if_pos hmodifier,
            ih previous (TokenStream.lt_of_findBefore hprevious).1
              (Mirrors.not_openTag_of_has hhas rfl)]
        · rw [if_neg hmodifier, if_neg hmodifier]

/-- A function is a test in both forms or in neither. -/
theorem isTestMethod_image {ctx ctx' : FileContext} (hctx : ctx.Mirrors ctx' φ)
    (testClasses : List Text) {i : Nat} (hi : ctx.stream.isAt i (.keyword .kwFunction) = true) :
    isTestMethod testClasses ctx' (φ i) = isTestMethod testClasses ctx i := by
  have hmodifiers := modifiersBefore_image hctx.stream (Mirrors.not_openTag_of_isAt hi (by decide))
  have hname := hctx.stream.declaredName?_image (Mirrors.not_closeTag_of_isAt hi (by decide))
  unfold isTestMethod
  dsimp only
  rw [hmodifiers, hname, hctx.symbols, SymbolTable.typeAt?_image hctx.stream, FileContext.isTest,
    hctx.path]
  rfl

/-! ## Statements that return -/

/-- A nested declaration starts at the image when one starts at the index. -/
theorem startsNested_image (h : Mirrors s s' φ) (i : Nat) :
    startsNested s' (φ i) = startsNested s i := by
  rw [startsNested, startsNested, h.isClosure_image, h.isAnonymousClass_image]

/-- No nested declaration starts with a closing tag. -/
theorem not_closeTag_of_startsNested {i : Nat} (hi : startsNested s i = true) :
    s.isAt i .closeTag = false := by
  rcases (Bool.or_eq_true _ _).mp hi with hclosure | hclass
  · rw [TokenStream.isClosure, Bool.and_eq_true] at hclosure
    exact Mirrors.not_closeTag_of_isAt hclosure.1 (by decide)
  · obtain ⟨k, hat, -, hclose⟩ := Mirrors.exists_of_isAnonymousClass hclass
    exact Mirrors.not_closeTag_of_isAt hat hclose

/-- A nested declaration ends at the image. -/
theorem nestedEnd?_image (h : Mirrors s s' φ) (i : Nat) :
    nestedEnd? s' (φ i) = (nestedEnd? s i).map φ := by
  unfold nestedEnd?
  rw [startsNested_image h]
  by_cases hnested : startsNested s i = true
  · rw [if_pos hnested, if_pos hnested, h.bodyCloser?_image (not_closeTag_of_startsNested hnested)]
  · rw [if_neg hnested, if_neg hnested]
    rfl

theorem returnsFrom_of_not_lt {stop i : Nat} (hi : ¬i < stop) : returnsFrom s stop i = [] := by
  rw [returnsFrom, if_neg hi]

/-- A nested declaration is jumped over. -/
theorem returnsFrom_of_nested {stop i closer : Nat} (hi : i < stop)
    (hnested : nestedEnd? s i = some closer) :
    returnsFrom s stop i = returnsFrom s stop (closer + 1) := by
  rw [returnsFrom, if_pos hi]
  split
  · next hend => rw [Option.some.inj (hend.symm.trans hnested)]
  · next hend => cases hend.symm.trans hnested

/-- Of any other token the statement is kept, and the cursor goes on behind it. -/
theorem returnsFrom_of_plain {stop i : Nat} (hi : i < stop) (hplain : nestedEnd? s i = none) :
    returnsFrom s stop i =
      (if s.has i isReturn then [i] else []) ++ returnsFrom s stop (i + 1) := by
  rw [returnsFrom, if_pos hi]
  split
  · next hend => cases hend.symm.trans hplain
  · rfl

/-- A line end that is left is no statement. -/
theorem returnsFrom_succ (h : Mirrors s s' φ) (stop i : Nat) :
    returnsFrom s' (φ stop) (φ i + 1) = returnsFrom s' (φ stop) (φ (i + 1)) := by
  rcases h.succ i with hone | ⟨htwo, -⟩
  · rw [hone]
  · by_cases hlt : φ i + 1 < φ stop
    · have hplain : nestedEnd? s' (φ i + 1) = none := by
        rw [nestedEnd?, startsNested, TokenStream.isClosure, TokenStream.isAnonymousClass,
          h.isAt_left htwo (by decide), h.isAt_left htwo (by decide), Bool.false_and, Bool.false_and,
          Bool.or_self, if_neg Bool.false_ne_true]
      have hreturn : s'.has (φ i + 1) isReturn = false := h.has_left htwo isReturn
      rw [returnsFrom_of_plain hlt hplain, hreturn, if_neg Bool.false_ne_true, List.nil_append, htwo]
    · rw [returnsFrom_of_not_lt hlt, returnsFrom_of_not_lt (by omega)]

/-- The statements that return are the images of those of the other form. -/
theorem returnsFrom_image (h : Mirrors s s' φ) (stop i : Nat) :
    returnsFrom s' (φ stop) (φ i) = (returnsFrom s stop i).map φ := by
  induction i using returnsFrom.induct s stop with
  | case1 i hlt closer hnested ih =>
    have hnested' : nestedEnd? s' (φ i) = some (φ closer) := by
      rw [nestedEnd?_image h, hnested, Option.map_some]
    rw [returnsFrom_of_nested (h.strictMono hlt) hnested', returnsFrom_of_nested hlt hnested,
      returnsFrom_succ h, ih]
  | case2 i hlt hplain ih =>
    have hplain' : nestedEnd? s' (φ i) = none := by
      rw [nestedEnd?_image h, hplain, Option.map_none]
    rw [returnsFrom_of_plain (h.strictMono hlt) hplain', returnsFrom_of_plain hlt hplain,
      returnsFrom_succ h, ih, h.has_image, List.map_append]
    congr 1
    split <;> rfl
  | case3 i hge =>
    have hge' : ¬φ i < φ stop := fun hlt => hge (h.strictMono.lt_iff_lt.1 hlt)
    rw [returnsFrom_of_not_lt hge', returnsFrom_of_not_lt hge]
    rfl

/-- Each statement that is collected returns. -/
theorem isReturn_of_mem_returnsFrom {stop i statement : Nat} (h : statement ∈ returnsFrom s stop i) :
    s.has statement isReturn = true := by
  induction i using returnsFrom.induct s stop with
  | case1 i hlt closer hnested ih =>
    rw [returnsFrom_of_nested hlt hnested] at h
    exact ih h
  | case2 i hlt hplain ih =>
    rw [returnsFrom_of_plain hlt hplain, List.mem_append] at h
    rcases h with h | h
    · obtain ⟨hreturn, h⟩ := List.mem_ite_nil_right.1 h
      rwa [List.mem_singleton.1 h]
    · exact ih h
  | case3 i hge =>
    rw [returnsFrom_of_not_lt hge] at h
    cases h

/-- A statement returns a value in both forms or in neither. -/
theorem returnsValue_image (h : Mirrors s s' φ) {statement : Nat}
    (hreturn : s.has statement isReturn = true) :
    returnsValue s' (φ statement) = returnsValue s statement := by
  unfold returnsValue
  rw [← h.image_succ (Mirrors.not_closeTag_of_has hreturn rfl), h.findNext_image (fun _ => rfl),
    Option.all_map]
  simp only [h.isAt_image]

/-! ## Findings about the return type -/

/-- What is found about the statements is moved. -/
theorem bodyFindings_image (h : Mirrors s s' φ) (type : Text) (tag : Nat) {statements : List Nat}
    (hreturns : ∀ statement ∈ statements, s.has statement isReturn = true) :
    bodyFindings type s' (φ tag) (statements.map φ) =
      (bodyFindings type s tag statements).map (Finding.move φ) := by
  have hsearch : (statements.map φ).find? (returnsValue s') =
      (statements.find? (returnsValue s)).map φ := by
    rw [List.find?_map]
    exact congrArg _ (List.find?_congr fun statement hstatement =>
      returnsValue_image h (hreturns statement hstatement))
  unfold bodyFindings
  rw [hsearch]
  by_cases hvoid : type = "void".toList
  · rw [if_pos hvoid, if_pos hvoid]
    cases statements.find? (returnsValue s) <;> rfl
  · rw [if_neg hvoid, if_neg hvoid]
    by_cases hmixed : type = "mixed".toList ∨ "void".toList ∈ ReturnType.alternatives type
    · rw [if_pos hmixed, if_pos hmixed]
      rfl
    · rw [if_neg hmixed, if_neg hmixed]
      cases statements with
      | nil => rfl
      | cons first statements =>
        rw [List.map_cons]
        dsimp only
        rw [returnsValue_image h (hreturns first (List.mem_cons_self ..))]
        split <;> rfl

/-- Behind a tag there may be a closing tag, but then no text of a comment follows. -/
theorem tagText?_image (h : Mirrors s s' φ) {tag : Nat} (htag : s.isAt tag .docTag = true) :
    tagText? s' (φ tag) = tagText? s tag := by
  have hnext := h.image_succ (Mirrors.not_closeTag_of_isAt htag (by decide))
  unfold tagText?
  rcases h.succ (tag + 1) with hone | ⟨htwo, hclose, hhtml, hopen⟩
  · have hplace : φ (tag + 2) = φ (tag + 1) + 1 := hone
    rw [show φ tag + 2 = φ (tag + 2) by omega]
    cases ht : s.token? (tag + 2) with
    | none => rw [h.token?_image_eq_none ht]
    | some t =>
      obtain ⟨t', ht', halike⟩ := h.token _ t ht
      rw [ht', Option.bind_some, Option.bind_some, halike.kind]
      by_cases htext : t.kind = .docText
      · rw [halike.plain (by rw [htext]; rfl)]
      · rw [if_neg fun hboth => htext hboth.1, if_neg fun hboth => htext hboth.1]
  · -- Behind a closing tag stand the line end that is left and, in the other form, an open tag.
    have hnot {r : TokenStream} {i : Nat} (hi : r.isAt i .docText = false) :
        ((r.token? i).bind fun t =>
          if t.kind = .docText ∧ t.content ≠ [] then some t.content else none) = none := by
      rw [Option.bind_eq_none_iff]
      intro t ht
      refine if_neg fun hboth => ?_
      rw [(TokenStream.isAt_of_token? ht .docText).2 hboth.1] at hi
      cases hi
    rw [hnot, hnot]
    · rw [TokenStream.isAt]
      cases hkind : s.kind? (tag + 2) with
      | none => rfl
      | some k =>
        rw [hopen k hkind]
        rfl
    · rw [TokenStream.isAt, show φ tag + 2 = φ (tag + 1) + 1 by omega, hhtml]
      rfl

/-- The tags of one sort are the images of those of the other form. -/
theorem filter_content_image (h : Mirrors s s' φ) (word : Text) {tags : List Nat}
    (htags : ∀ tag ∈ tags, s.isAt tag .docTag = true) :
    (tags.map φ).filter (s'.content · == word) =
      (tags.filter (s.content · == word)).map φ := by
  rw [List.filter_map]
  refine congrArg _ (List.filter_congr fun tag htag => ?_)
  exact congrArg (· == word) (h.content_image (TokenStream.has_of_isAt (htags tag htag) _))

/-- What is found about the return type is moved. -/
theorem returnFindings_image (h : Mirrors s s' φ) {i : Nat} (hi : s.isAt i .closeTag = false)
    (closer : Nat) {tags : List Nat} (htags : ∀ tag ∈ tags, s.isAt tag .docTag = true) :
    returnFindings s' (φ i) (φ closer) (tags.map φ) =
      (returnFindings s i closer tags).map (Finding.move φ) := by
  unfold returnFindings
  rw [filter_content_image h "@return".toList htags, h.declaredName?_image hi]
  have hreturns : ∀ tag ∈ tags.filter (s.content · == "@return".toList),
      s.isAt tag .docTag = true := fun tag htag => htags tag (List.mem_filter.1 htag).1
  generalize tags.filter (s.content · == "@return".toList) = returns at hreturns ⊢
  cases returns with
  | nil =>
    rw [List.map_nil]
    dsimp only
    split <;> rfl
  | cons tag rest =>
    cases rest with
    | cons duplicate rest => rfl
    | nil =>
      rw [List.map_cons, List.map_nil]
      dsimp only
      rw [tagText?_image h (hreturns tag (List.mem_cons_self ..)), h.bodyCloser?_image hi]
      split
      · rfl
      · cases tagText? s tag with
        | none => rfl
        | some text =>
          dsimp only
          cases s.bodyCloser? i with
          | none => rfl
          | some bodyEnd =>
            dsimp only [Option.map_some]
            rw [← h.image_succ hi, returnsFrom_image h]
            exact bodyFindings_image h _ tag fun _ hmem => isReturn_of_mem_returnsFrom hmem

/-! ## Findings about a comment -/

/-- The tag has a text on its line. -/
def isDescribed (s : TokenStream) (closer tag : Nat) : Bool :=
  (s.findNextBefore (· == .docText) tag closer).any fun text => s.line text == s.line tag

/-- A tag has a text on its line in both forms or in neither. -/
theorem isDescribed_image (h : Mirrors s s' φ) (closer : Nat) {tag : Nat}
    (htag : s.isAt tag .docTag = true) :
    isDescribed s' (φ closer) (φ tag) = isDescribed s closer tag := by
  unfold isDescribed
  rw [h.findNextBefore_image (by decide), h.line_image_of_isAt htag (by decide)]
  cases hfound : s.findNextBefore (· == .docText) tag closer with
  | none => rfl
  | some text =>
    have htext := TokenStream.has_of_findNext (Option.filter_eq_some_iff.1 hfound).1
    rw [Option.map_some, Option.any_some, Option.any_some, h.line_image_of_has htext (by decide)]

/-- What is found about the tags that refer to something is moved. -/
theorem seeFindings_image (h : Mirrors s s' φ) (closer : Nat) {tags : List Nat}
    (htags : ∀ tag ∈ tags, s.isAt tag .docTag = true) :
    seeFindings s' (φ closer) (tags.map φ) =
      (seeFindings s closer tags).map (Finding.move φ) := by
  have hempty : (tags.map φ).filter
      (fun tag => s'.content tag == "@see".toList && !isDescribed s' (φ closer) tag) =
        (tags.filter fun tag => s.content tag == "@see".toList && !isDescribed s closer tag).map φ := by
    rw [List.filter_map]
    refine congrArg _ (List.filter_congr fun tag htag => ?_)
    rw [Function.comp_apply, h.content_image (TokenStream.has_of_isAt (htags tag htag) _),
      isDescribed_image h closer (htags tag htag)]
  unfold seeFindings
  dsimp only
  simp only [isDescribed] at hempty
  rw [hempty, List.map_map, List.map_map]
  rfl

/-- A function overrides a method in both forms or in neither. -/
theorem overrides_image {ctx ctx' : FileContext} (hctx : ctx.Mirrors ctx' φ) {i : Nat}
    (hi : ctx.stream.isAt i .closeTag = false) : overrides ctx' (φ i) = overrides ctx i := by
  unfold overrides
  rw [hctx.stream.declaredName?_image hi, hctx.symbols]
  simp only [SymbolTable.typeAt?_image hctx.stream]

/-- What opens the comment that a token ends. -/
theorem opener_of_partner? {opener closer : Nat}
    (hcloser : s.isAt closer (.closes .docComment) = true) (hpair : s.partner? closer = some opener) :
    opener < closer ∧ s.isAt opener (.opens .docComment) = true := by
  rcases TokenStream.partner?_eq_some_iff.1 hpair with hmem | hmem
  · obtain ⟨d, hopens, -⟩ := (TokenStream.kind?_of_mem_pairs hmem).2
    rw [TokenStream.isAt_iff.1 hcloser] at hopens
    cases hopens
  · obtain ⟨hlt, d, hopens, hcloses⟩ := TokenStream.kind?_of_mem_pairs hmem
    rw [TokenStream.isAt_iff.1 hcloser] at hcloses
    cases hcloses
    exact ⟨hlt, TokenStream.isAt_iff.2 hopens⟩

/-- What is found about a doc comment is moved. -/
theorem docFindings_image {ctx ctx' : FileContext} (hctx : ctx.Mirrors ctx' φ) {i opener closer : Nat}
    (hi : ctx.stream.isAt i .closeTag = false)
    (hcloser : ctx.stream.isAt closer (.closes .docComment) = true)
    (hpair : ctx.stream.partner? closer = some opener) :
    docFindings ctx' (φ i) (φ opener) (φ closer) =
      (docFindings ctx i opener closer).map (Finding.move φ) := by
  have h := hctx.stream
  obtain ⟨hlt, hopener⟩ := opener_of_partner? hcloser hpair
  have htags := ctx.stream.isAt_docTags opener
  have htext := h.text opener closer (Nat.le_of_lt hlt) (TokenStream.has_of_isAt hopener _)
    (TokenStream.has_of_isAt hcloser _)
  unfold docFindings
  dsimp only
  rw [h.docTags_image, returnFindings_image h hi closer htags, seeFindings_image h closer htags,
    overrides_image hctx hi, htext, Text.includes_withReturns (by decide) (by decide)
      (by decide), List.map_append]
  congr 1
  split
  · cases overrides ctx i with
    | none => rfl
    | some declared => cases declared <;> rfl
  · rfl

/-- What is found about a function is moved. -/
theorem findings_image {ctx ctx' : FileContext} (hctx : ctx.Mirrors ctx' φ) (testClasses : List Text)
    {i : Nat} (hi : ctx.stream.isAt i (.keyword .kwFunction) = true) :
    findings testClasses ctx' (φ i) = (findings testClasses ctx i).map (Finding.move φ) := by
  have h := hctx.stream
  have hopen := Mirrors.not_openTag_of_isAt hi (by decide)
  have hclose := Mirrors.not_closeTag_of_isAt hi (by decide)
  unfold findings
  dsimp only
  rw [h.isClosure_image, commentEnd?_image h hopen, isTestMethod_image hctx testClasses hi,
    h.line_image_of_isAt hi (by decide)]
  split
  · rfl
  · cases hend : commentEnd? ctx.stream i with
    | none =>
      dsimp only [Option.map_none]
      split <;> rfl
    | some closer =>
      dsimp only [Option.map_some]
      rw [h.isAt_image]
      by_cases hcomment : ctx.stream.isAt closer .comment = true
      · rw [if_pos hcomment, if_pos hcomment]
        rfl
      · have hcloser := (isAt_of_commentEnd? hend).resolve_right hcomment
        rw [if_neg hcomment, if_neg hcomment, h.line_image_of_isAt hcloser (by decide),
          h.partner?_image, List.map_append]
        congr 1
        · split <;> rfl
        · cases hpair : ctx.stream.partner? closer with
          | none => rfl
          | some opener => exact docFindings_image hctx hclose hcloser hpair

/-! ## Places -/

/-- What is found about statements points at the tag and at statements. -/
theorem keepsPlaces_bodyFindings {type : Text} {tag : Nat} {statements : List Nat}
    (htag : s.isAt tag .docTag = true)
    (hreturns : ∀ statement ∈ statements, s.has statement isReturn = true) :
    ∀ f ∈ bodyFindings type s tag statements, f.KeepsPlaces s := by
  have hplace : s.has tag Kind.keepsPlace = true := TokenStream.has_of_isAt htag _
  have hplaces {statement : Nat} (hmem : statement ∈ statements) :
      s.has statement Kind.keepsPlace = true :=
    TokenStream.has_keepsPlace (hreturns statement hmem) rfl rfl
  intro f hf
  unfold bodyFindings at hf
  by_cases hvoid : type = "void".toList
  · rw [if_pos hvoid] at hf
    cases hfound : statements.find? (returnsValue s) with
    | none =>
      rw [hfound] at hf
      cases hf
    | some statement =>
      rw [hfound] at hf
      obtain rfl := List.mem_singleton.1 hf
      exact ⟨hplace, List.forall_mem_singleton.2 (hplaces (List.mem_of_find?_eq_some hfound))⟩
  · rw [if_neg hvoid] at hf
    obtain ⟨-, hf⟩ := List.mem_ite_nil_left.1 hf
    cases statements with
    | nil =>
      obtain rfl := List.mem_singleton.1 hf
      exact .of_isAt htag rfl rfl
    | cons first statements =>
      obtain ⟨-, hf⟩ := List.mem_ite_nil_left.1 hf
      obtain rfl := List.mem_singleton.1 hf
      exact ⟨hplaces (List.mem_cons_self ..), List.forall_mem_singleton.2 hplace⟩

/-- What is found about the return type points at tags, statements or the end of the comment. -/
theorem keepsPlaces_returnFindings {i closer : Nat} {tags : List Nat}
    (hcloser : s.isAt closer (.closes .docComment) = true)
    (htags : ∀ tag ∈ tags, s.isAt tag .docTag = true) :
    ∀ f ∈ returnFindings s i closer tags, f.KeepsPlaces s := by
  intro f hf
  unfold returnFindings at hf
  have hreturns : ∀ tag ∈ tags.filter (s.content · == "@return".toList),
      s.isAt tag .docTag = true := fun tag htag => htags tag (List.mem_filter.1 htag).1
  generalize tags.filter (s.content · == "@return".toList) = returns at hf hreturns
  split at hf
  · next first duplicate rest =>
    obtain rfl := List.mem_singleton.1 hf
    exact ⟨TokenStream.has_of_isAt (hreturns duplicate (by simp)) _,
      List.forall_mem_singleton.2 (TokenStream.has_of_isAt (hreturns first (by simp)) _)⟩
  · obtain ⟨-, hf⟩ := List.mem_ite_nil_left.1 hf
    cases returns with
    | nil =>
      obtain rfl := List.mem_singleton.1 hf
      exact .of_isAt hcloser rfl rfl
    | cons tag rest =>
      have htag := hreturns tag (List.mem_cons_self ..)
      dsimp only at hf
      split at hf
      · obtain rfl := List.mem_singleton.1 hf
        exact .of_isAt htag rfl rfl
      · split at hf
        · cases hf
        · exact keepsPlaces_bodyFindings htag (fun _ hmem => isReturn_of_mem_returnsFrom hmem) f hf

/-- What is found about a doc comment points into the comment and at statements. -/
theorem keepsPlaces_docFindings {ctx : FileContext} {i opener closer : Nat}
    (hcloser : ctx.stream.isAt closer (.closes .docComment) = true)
    (hpair : ctx.stream.partner? closer = some opener) :
    ∀ f ∈ docFindings ctx i opener closer, f.KeepsPlaces ctx.stream := by
  intro f hf
  have htags := ctx.stream.isAt_docTags opener
  have hreturns := keepsPlaces_returnFindings (i := i) hcloser htags
  unfold docFindings at hf
  rcases List.mem_append.1 hf with hf | hf
  · obtain ⟨tag, htag, rfl⟩ := List.mem_map.1 hf
    exact .of_isAt (htags tag (List.mem_filter.1 htag).1) rfl rfl
  · split at hf
    · split at hf
      · rcases List.mem_cons.1 hf with rfl | hf
        · exact .of_isAt (opener_of_partner? hcloser hpair).2 rfl rfl
        · exact hreturns f hf
      · cases hf
    · exact hreturns f hf

/-- What is found about a function points at tokens that keep their place. -/
theorem keepsPlaces_findings {testClasses : List Text} {ctx : FileContext} {i : Nat}
    (hi : ctx.stream.isAt i (.keyword .kwFunction) = true) :
    ∀ f ∈ findings testClasses ctx i, f.KeepsPlaces ctx.stream := by
  intro f hf
  unfold findings at hf
  obtain ⟨-, hf⟩ := List.mem_ite_nil_left.1 hf
  split at hf
  · obtain ⟨-, hf⟩ := List.mem_ite_nil_left.1 hf
    obtain rfl := List.mem_singleton.1 hf
    exact .of_isAt hi rfl rfl
  · next closer hend =>
    split at hf
    · obtain rfl := List.mem_singleton.1 hf
      exact .of_isAt hi rfl rfl
    · next hcomment =>
      have hcloser := (isAt_of_commentEnd? hend).resolve_right hcomment
      rcases List.mem_append.1 hf with hf | hf
      · obtain ⟨-, hf⟩ := List.mem_ite_nil_left.1 hf
        obtain rfl := List.mem_singleton.1 hf
        exact .of_isAt hcloser rfl rfl
      · split at hf
        · next opener hpair => exact keepsPlaces_docFindings hcloser hpair f hf
        · cases hf

/-- **Line ends do not matter to the check of function comments.**. -/
theorem invariant_sniff (severity : Severity) (testClasses : List Text) :
    (sniff severity testClasses).Invariant where
  listens := by simp [sniff]
  findings := by
    intro ctx ctx' φ i hctx hi
    exact findings_image hctx testClasses (TokenStream.isAt_of_has_contains hi)
  places := by
    intro ctx i hi
    exact keepsPlaces_findings (TokenStream.isAt_of_has_contains hi)

end PhpLint.FunctionComment

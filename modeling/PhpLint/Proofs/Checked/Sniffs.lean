import PhpLint.Proofs.Checked.Stream
import PhpLint.Proofs.Text.Bytes
import PhpLint.Sniff.ArrayTrailingComma
import PhpLint.Sniff.DocCommentSpacing
import PhpLint.Sniff.OperandOrder
import PhpLint.Sniff.StrictDeclaration

/-!
# The other checks with checked accesses

Each of the checks other than the one for the comments of functions, read with its accesses.  The
differences are taken here: the token before a tag is looked for, and the one before an open tag.  A
tag stands behind the opener of its comment (`lt_of_mem_docTags`), so there is one before it.
-/

namespace PhpLint.Checked

open TokenStream (Fits)

variable {s : TokenStream} {ctx : FileContext} {i j : Nat}

/-- The token at an index, which is taken. -/
def token (s : TokenStream) (i : Nat) : Checked Token :=
  match s.token? i with
  | some t => .ok t
  | none => .error (.index (.index i))

theorem exists_token (hi : i < s.size) : ∃ t, s.token? i = some t ∧ t ∈ s.tokens :=
  ⟨s.tokens[i], Array.getElem?_eq_getElem hi, Array.getElem_mem hi⟩

theorem token_eq {t : Token} (h : s.token? i = some t) : token s i = .ok t := by
  rw [token, h]

/-! ## Blank lines in doc comments -/

section DocComment

open DocCommentSpacing (Spacing expect blankLines)

variable {opener closer first : Nat} {tags : List Nat}

/-- The line of the last content at or before an index and after the comment's opener. -/
def contentLine? (s : TokenStream) (opener last : Nat) : Checked (Option Nat) :=
  andThen (Option.filter (opener < ·) <$> findPrevious s Kind.isDocContent last) fun i =>
    some <$> look s i TokenStream.line

/-- The line of the last content before a tag. -/
def contentLineBefore? (s : TokenStream) (opener tag : Nat) : Checked (Option Nat) := do
  contentLine? s opener (← minus tag 1)

/-- The findings between the description and the first tag, if both are there. -/
def afterDescription (s : TokenStream) (spacing : Spacing) (opener first : Nat) :
    List Nat → Checked (List Finding)
  | [] => return []
  | tag :: _ => do
    if first < tag then
      let last := (← contentLineBefore? s opener tag).getD (← look s first TokenStream.line)
      return expect tag "BetweenDescriptionAndAnnotations" "between description and annotations"
        spacing.afterDescription (blankLines last (← look s tag TokenStream.line))
    else return []

/-- The findings between a tag and the next one. -/
def betweenTags (s : TokenStream) (spacing : Spacing) (opener tag next : Nat) :
    Checked (List Finding) := do
  let last := (← contentLineBefore? s opener next).getD (← look s tag TokenStream.line)
  let found := blankLines last (← look s next TokenStream.line)
  let name ← look s tag TokenStream.content
  if name = (← look s next TokenStream.content) then
    return expect next "BetweenSameAnnotations" "between same annotations" spacing.betweenSame
      found
  else
    return expect next "BetweenDifferentAnnotationsTypes" "between different annotations types"
      spacing.betweenDifferent found

/-- The findings between neighbours in a list of tags. -/
def betweenAll (s : TokenStream) (spacing : Spacing) (opener : Nat) :
    List Nat → Checked (List Finding)
  | tag :: next :: tags => do
    return (← betweenTags s spacing opener tag next) ++
      (← betweenAll s spacing opener (next :: tags))
  | _ => return []

/-- The findings after the last content. -/
def afterLast (s : TokenStream) (spacing : Spacing) (opener closer : Nat) :
    Checked (List Finding) := do
  match ← contentLine? s opener closer with
  | some last =>
    return expect closer "AfterLastContent" "after last content" spacing.afterLast
      (blankLines last (← look s closer TokenStream.line))
  | none => return []

/-- The findings in the doc comment that opens at an index. -/
def docCommentSpacing (spacing : Spacing) (ctx : FileContext) (opener : Nat) :
    Checked (List Finding) := do
  let s := ctx.stream
  match s.partner? opener with
  | none => return []
  | some closer =>
    let line ← look s opener TokenStream.line
    if line = (← look s closer TokenStream.line) then return []
    match ← findNextBefore s Kind.isDocContent opener closer with
    | none => return []
    | some first =>
      let beforeFirst := expect opener "BeforeFirstContent" "before first content"
        spacing.beforeFirst (blankLines line (← look s first TokenStream.line))
      let tags ← docTags s opener
      return beforeFirst ++ (← afterDescription s spacing opener first tags) ++
        (← betweenAll s spacing opener tags) ++ (← afterLast s spacing opener closer)

/-- The line of the last content is found, the index counted as one that may be looked at. -/
theorem contentLine?_eq (hs : s.Fits) (opener i : Nat) :
    contentLine? s opener i = .ok (DocCommentSpacing.contentLineBefore? s opener (i + 1)) := by
  have hfound : Option.filter (opener < ·) <$> findPrevious s Kind.isDocContent i =
      .ok ((s.findBefore Kind.isDocContent (i + 1)).filter (opener < ·)) :=
    map_eq (findPrevious_eq hs _ i) _
  rw [DocCommentSpacing.contentLineBefore?, Option.map_eq_bind]
  refine andThen_eq hfound fun k hk => ?_
  exact map_eq (look_eq (TokenStream.lt_of_findBefore (Option.filter_eq_some_iff.1 hk).1).2 _) some

/-- Before an index other than the first, the line of the last content is found. -/
theorem contentLineBefore?_eq (hs : s.Fits) (opener : Nat) (hi : 0 < i) :
    contentLineBefore? s opener i = .ok (DocCommentSpacing.contentLineBefore? s opener i) := by
  rw [contentLineBefore?, minus_eq hi, ok_bind, contentLine?_eq hs, Nat.sub_add_cancel hi]

/-- A tag stands behind the delimiter that opens its comment. -/
theorem lt_of_mem_docTags (h : i ∈ s.docTags opener) : opener < i := by
  have htag := TokenStream.isAt_iff.1 (TokenStream.isAt_docTags s opener i h)
  unfold TokenStream.docTags at h
  split at h
  · next closer hpartner =>
    have hrange := List.mem_range'_1.1 (List.mem_filter.1 h).1
    have hpair := TokenStream.mem_pairs_of_lt hpartner (by omega)
    obtain ⟨-, d, hopener, -⟩ := TokenStream.kind?_of_mem_pairs hpair
    have hne : opener ≠ i := by
      intro heq
      rw [← heq, hopener] at htag
      cases htag
    omega
  · cases h

/-- The first tag is compared with the description without an access out of range, as long as no tag is
the first token. -/
theorem afterDescription_eq (hs : s.Fits) (spacing : Spacing) (hfirst : first < s.size)
    (htags : ∀ tag ∈ tags, 0 < tag ∧ tag < s.size) :
    afterDescription s spacing opener first tags =
      .ok (DocCommentSpacing.afterDescription s spacing opener first tags) := by
  cases tags with
  | nil => rfl
  | cons tag rest =>
    obtain ⟨hpos, hlt⟩ := htags tag List.mem_cons_self
    rw [afterDescription, DocCommentSpacing.afterDescription]
    split
    · rw [contentLineBefore?_eq hs opener hpos, ok_bind, look_eq hfirst, ok_bind, look_eq hlt]
      rfl
    · rfl

/-- Neighbouring tags are compared without an access out of range, as long as no tag is the first token.
-/
theorem betweenAll_eq (hs : s.Fits) (spacing : Spacing) (opener : Nat)
    (htags : ∀ tag ∈ tags, 0 < tag ∧ tag < s.size) :
    betweenAll s spacing opener tags =
      .ok (DocCommentSpacing.betweenAll s spacing opener tags) := by
  fun_induction DocCommentSpacing.betweenAll s spacing opener tags with
  | case1 tag next tags ih =>
    obtain ⟨-, htag⟩ := htags tag List.mem_cons_self
    obtain ⟨hpos, hnext⟩ := htags next (by simp)
    have hrest := ih fun t ht => htags t (List.mem_cons_of_mem tag ht)
    have hbetween : betweenTags s spacing opener tag next =
        .ok (DocCommentSpacing.betweenTags s spacing opener tag next) := by
      rw [betweenTags, contentLineBefore?_eq hs opener hpos, ok_bind, look_eq htag, ok_bind,
        look_eq hnext, ok_bind, look_eq htag, ok_bind, look_eq hnext, ok_bind]
      exact (apply_ite Except.ok _ _ _).symm
    rw [betweenAll, hbetween, hrest]
    rfl
  | case2 tags hshort =>
    unfold betweenAll
    split
    · next tag next rest => exact absurd rfl (hshort tag next rest)
    · rfl

/-- **Blank lines are counted without an access out of range.** -/
theorem docCommentSpacing_eq (hs : ctx.stream.Fits) (spacing : Spacing)
    (hi : i < ctx.stream.size) :
    docCommentSpacing spacing ctx i = .ok (DocCommentSpacing.findings spacing ctx i) := by
  rw [docCommentSpacing, DocCommentSpacing.findings]
  dsimp only
  cases hpartner : ctx.stream.partner? i with
  | none => rfl
  | some closer =>
    have hcloser := lt_size_of_partner? hpartner
    have htags : ∀ tag ∈ ctx.stream.docTags i, 0 < tag ∧ tag < ctx.stream.size := by
      intro tag htag
      exact ⟨Nat.lt_of_le_of_lt (Nat.zero_le i) (lt_of_mem_docTags htag),
        lt_size_of_isAt (TokenStream.isAt_docTags _ _ tag htag)⟩
    dsimp only
    rw [look_eq hi, ok_bind, look_eq hcloser, ok_bind]
    split
    · rfl
    rw [findNextBefore_eq, ok_bind]
    cases hfirst : ctx.stream.findNextBefore Kind.isDocContent i closer with
    | none => rfl
    | some first =>
      have hlt := lt_size_of_findNext (Option.filter_eq_some_iff.1 hfirst).1
      dsimp only
      rw [look_eq hlt, ok_bind, docTags_eq, ok_bind, afterDescription_eq hs spacing hlt htags,
        ok_bind, betweenAll_eq hs spacing i htags, ok_bind, afterLast, contentLine?_eq hs, ok_bind,
        DocCommentSpacing.afterLast]
      cases DocCommentSpacing.contentLineBefore? ctx.stream i (closer + 1) with
      | none => rfl
      | some last =>
        dsimp only
        rw [look_eq hcloser]
        rfl

end DocComment

/-! ## Commas after the last element -/

/-- The opening bracket of the array literal that starts at an index. -/
def arrayOpener? (s : TokenStream) (i : Nat) : Checked (Option Nat) := do
  if ← look s i (·.isAt · (.opens .square)) then
    let indexed ← anyAt (previousSignificant s i)
      (look s · (·.has · ArrayTrailingComma.isIndexable))
    return if indexed then none else some i
  else if ← look s i (·.isAt · (.keyword .kwArray)) then
    keepIf (nextSignificant s i) (look s · (·.isAt · (.opens .round)))
  else return none

/-- The comma after the last element of the array literal that starts at an index. -/
def trailingComma? (s : TokenStream) (i : Nat) : Checked (Option Nat) :=
  andThen (arrayOpener? s i) fun opener =>
  andThen (pure (s.partner? opener)) fun closer =>
  andThen (previousSignificant s closer) fun last => do
    return if opener < last ∧ (← look s last (·.isAt · .comma)) then some last else none

/-- The findings at an array literal that may start at an index. -/
def arrayTrailingComma (ctx : FileContext) (i : Nat) : Checked (List Finding) := do
  match ← trailingComma? ctx.stream i with
  | some comma =>
    return [{ index := comma, reason := "Found", message := "Trailing array comma is forbidden" }]
  | none => return []

/-- The bracket that opens a literal is found where the token at the index is there. -/
theorem arrayOpener?_eq (hs : s.Fits) (hi : i < s.size) :
    arrayOpener? s i = .ok (ArrayTrailingComma.opener? s i) := by
  have hsize := hs.size
  have hindexed : anyAt (previousSignificant s i)
      (look s · (·.has · ArrayTrailingComma.isIndexable)) =
      .ok ((s.previousSignificant i).any (s.has · ArrayTrailingComma.isIndexable)) :=
    anyAt_eq (previousSignificant_eq hs i) fun p hp => look_eq (lt_size_of_previousSignificant hp) _
  rw [arrayOpener?, look_eq hi, ok_bind, look_eq hi, ok_bind, hindexed,
    ArrayTrailingComma.opener?]
  split
  · rfl
  split
  · refine keepIf_eq (nextSignificant_eq (by omega)) fun next hnext => ?_
    exact look_eq (lt_size_of_nextSignificant hnext) _
  · rfl

/-- **Commas are found without an access out of range.** -/
theorem arrayTrailingComma_eq (hs : ctx.stream.Fits) (hi : i < ctx.stream.size) :
    arrayTrailingComma ctx i = .ok (ArrayTrailingComma.findings ctx i) := by
  let comma? :=
    (ArrayTrailingComma.opener? ctx.stream i).bind fun opener =>
    (ctx.stream.partner? opener).bind fun closer =>
    (ctx.stream.previousSignificant closer).bind fun last =>
      if opener < last ∧ ctx.stream.isAt last .comma then some last else none
  have hfindings : ArrayTrailingComma.findings ctx i =
      match comma? with
      | some comma =>
        [{ index := comma, reason := "Found", message := "Trailing array comma is forbidden" }]
      | none => [] := rfl
  have hcomma : trailingComma? ctx.stream i = .ok comma? := by
    refine andThen_eq (arrayOpener?_eq hs hi) fun opener _ => andThen_eq rfl fun closer _ => ?_
    refine andThen_eq (previousSignificant_eq hs closer) fun last hlast => ?_
    rw [look_eq (lt_size_of_previousSignificant hlast)]
    rfl
  rw [arrayTrailingComma, hcomma, ok_bind, hfindings]
  cases comma? <;> rfl

/-! ## The order of operands -/

section OperandOrder

open OperandOrder (isLiteral isNumber endsOperand binds isSign Style)

/-- The operand before the operator at an index is a lone literal. -/
def leftIsLiteral (s : TokenStream) (operator : Nat) : Checked Bool := do
  match ← previousSignificant s operator with
  | none => return false
  | some literal =>
    if !(← look s literal (·.has · isLiteral)) then return false
    match ← previousSignificant s literal with
    | none => return true
    | some before =>
      if ← (look s before isSign <&&> look s literal (·.has · isNumber)) then
        match ← previousSignificant s before with
        | none => return true
        | some further =>
          ((!·) <$> look s further (·.has · endsOperand)) <&&> ((!·) <$> look s further binds)
      else return !(← look s before binds)

/-- The operand after the operator at an index, a sign in front of a number not counted. -/
def rightOperand? (s : TokenStream) (operator : Nat) : Checked (Option Nat) :=
  andThen (nextSignificant s operator) fun next => do
    if ← look s next isSign then
      keepIf (nextSignificant s next) (look s · (·.has · isNumber))
    else return some next

/-- The operand after the operator at an index is a lone literal. -/
def rightIsLiteral (s : TokenStream) (operator : Nat) : Checked Bool := do
  match ← rightOperand? s operator with
  | none => return false
  | some literal =>
    look s literal (·.has · isLiteral) <&&>
      ((!·) <$> anyAt (nextSignificant s literal)
        (look s · fun s after => binds s after || s.isAt after (.opens .square)))

/-- The findings at the comparison at an index. -/
def operandOrder (style : Style) (ctx : FileContext) (i : Nat) : Checked (List Finding) := do
  let left ← leftIsLiteral ctx.stream i
  let right ← rightIsLiteral ctx.stream i
  let operator := String.ofList (← look ctx.stream i TokenStream.content)
  match style with
  | .require =>
    if !left && right then
      return [{ index := i, reason := "NotYoda",
                message := s!"Use Yoda condition, place the literal on the left of `{operator}`" }]
    else return []
  | .disallow =>
    if left && !right then
      return [{ index := i, reason := "Found",
                message :=
                  s!"Yoda condition found, place the literal on the right of `{operator}`" }]
    else return []

/-- The operand on the left is looked at without an access out of range. -/
theorem leftIsLiteral_eq (hs : s.Fits) (i : Nat) :
    leftIsLiteral s i = .ok (OperandOrder.leftIsLiteral s i) := by
  rw [leftIsLiteral, previousSignificant_eq hs, ok_bind, OperandOrder.leftIsLiteral]
  cases hliteral : s.previousSignificant i with
  | none => rfl
  | some literal =>
    have hlt := lt_size_of_previousSignificant hliteral
    dsimp only
    rw [look_eq hlt, ok_bind]
    split
    · rfl
    rw [previousSignificant_eq hs, ok_bind]
    cases hbefore : s.previousSignificant literal with
    | none => rfl
    | some before =>
      have hlt' := lt_size_of_previousSignificant hbefore
      dsimp only
      rw [and_eq (look_eq hlt' _) fun _ => look_eq hlt _, ok_bind, look_eq hlt']
      split
      · rw [previousSignificant_eq hs, ok_bind]
        cases hfurther : s.previousSignificant before with
        | none => rfl
        | some further =>
          have hlt'' := lt_size_of_previousSignificant hfurther
          exact and_eq (map_eq (look_eq hlt'' _) _) fun _ => map_eq (look_eq hlt'' _) _
      · rfl

/-- The operand on the right is looked at without an access out of range. -/
theorem rightIsLiteral_eq (hs : s.Fits) (hi : i < s.size) :
    rightIsLiteral s i = .ok (OperandOrder.rightIsLiteral s i) := by
  have hsize := hs.size
  let literal? := (s.nextSignificant i).bind fun next =>
    if isSign s next then (s.nextSignificant next).filter (s.has · isNumber) else some next
  have hanswer : OperandOrder.rightIsLiteral s i =
      match literal? with
      | none => false
      | some literal =>
        s.has literal isLiteral &&
          !(s.nextSignificant literal).any fun after =>
            binds s after || s.isAt after (.opens .square) := rfl
  have hliteral : rightOperand? s i = .ok literal? := by
    refine andThen_eq (nextSignificant_eq (by omega)) fun next hnext => ?_
    have hlt := lt_size_of_nextSignificant hnext
    rw [look_eq hlt, ok_bind]
    split
    · refine keepIf_eq (nextSignificant_eq (by omega)) fun number hnumber => ?_
      exact look_eq (lt_size_of_nextSignificant hnumber) _
    · rfl
  rw [rightIsLiteral, hliteral, ok_bind, hanswer]
  cases hoperand : literal? with
  | none => rfl
  | some literal =>
    have hlt : literal < s.size := by
      obtain ⟨next, hnext, hbehind⟩ := Option.bind_eq_some_iff.1 hoperand
      split at hbehind
      · exact lt_size_of_nextSignificant (Option.filter_eq_some_iff.1 hbehind).1
      · exact Option.some.inj hbehind ▸ lt_size_of_nextSignificant hnext
    refine and_eq (look_eq hlt _) fun _ => map_eq ?_ _
    exact anyAt_eq (nextSignificant_eq (by omega)) fun after hafter =>
      look_eq (lt_size_of_nextSignificant hafter) _

/-- **Operands are looked at without an access out of range.** -/
theorem operandOrder_eq (hs : ctx.stream.Fits) (style : Style) (hi : i < ctx.stream.size) :
    operandOrder style ctx i = .ok (OperandOrder.findings style ctx i) := by
  unfold operandOrder OperandOrder.findings
  rw [leftIsLiteral_eq hs, ok_bind, rightIsLiteral_eq hs hi, ok_bind, look_eq hi, ok_bind]
  cases style with
  | require => exact (apply_ite Except.ok _ _ _).symm
  | disallow => exact (apply_ite Except.ok _ _ _).symm

end OperandOrder

/-! ## The strict types declaration -/

section StrictDeclaration

open StrictDeclaration (Failure)

/-- The part of a declaration at a place, which is taken. -/
def part (parts : List Token) (n : Nat) : Checked Token :=
  match parts[n]? with
  | some t => .ok t
  | none => .error (.index (.index n))

/-- The next tokens of the given kinds from an index on, each at or after the one before. -/
def parts? (s : TokenStream) : List Kind → Nat → Checked (Option (List Token))
  | [], _ => return some []
  | k :: ks, start =>
    andThen (findNext s (· == k) start) fun i => do
      let t ← token s i
      andThen (parts? s ks i) fun ts => return some (t :: ts)

/-- The tokens stand on one line, side by side behind the token before them. -/
def adjacent (line : Nat) (previous : Token) : List Token → Checked Bool
  | [] => return true
  | t :: ts => do
    if t.line ≠ line then return false
    if t.column ≠ (← plus previous.column previous.length) then return false
    adjacent line t ts

/-- The `declare` keyword at an index starts the declaration as it has to be written. -/
def wellFormed (s : TokenStream) (index : Nat) (keyword : Token) : Checked Bool := do
  match ← parts? s (StrictDeclaration.shape.map Prod.fst) index with
  | none => return false
  | some parts =>
    if (← part parts 1).content ≠ "strict_types".toList ∨ (← part parts 3).content ≠ ['1'] then
      return false
    adjacent keyword.line keyword parts

/-- The first thing that is wrong with the declaration after the token at `start`. -/
def strictFailure? (s : TokenStream) (start : Nat) : Checked (Option Failure) := do
  match ← findNext s (· == .keyword .kwDeclare) start with
  | none => return some .missing
  | some index =>
    let below ← plus (← look s start TokenStream.line) 1
    let keyword ← token s index
    if keyword.line ≠ below then return some .wrongPosition
    if keyword.column ≠ 1 then return some .leadingSpace
    if ← wellFormed s index keyword then return none
    return some .invalid

/-- An open tag stands before an index. -/
def isBehindOpenTag (s : TokenStream) (i : Nat) : Checked Bool := do
  if 0 < i then
    return (← findPrevious s (· == .openTag) (← minus i 1)).isSome
  else return false

/-- The findings at an open tag: only the first one of a file is looked at. -/
def strictDeclaration (ctx : FileContext) (i : Nat) : Checked (List Finding) := do
  if ← isBehindOpenTag ctx.stream i then return []
  match ← strictFailure? ctx.stream i with
  | some f => return [{ index := i, reason := f.reason, message := f.message }]
  | none => return []

/-- The column behind a token is no sum too large. -/
theorem endColumn_lt (hs : s.Fits) {t : Token} (ht : t ∈ s.tokens) :
    t.column + t.length < 2 ^ 64 := by
  have hcolumn := hs.column t ht
  have hcontent := hs.content t ht
  have hlength : t.length ≤ Text.utf8Length t.content := Text.length_le_utf8Length t.content
  omega

/-- The parts of a declaration are found one behind the other. -/
theorem parts?_eq (s : TokenStream) (ks : List Kind) (i : Nat) :
    parts? s ks i = .ok (StrictDeclaration.parts? s ks i) := by
  induction ks generalizing i with
  | nil => rfl
  | cons k ks ih =>
    refine andThen_eq (findNext_eq s _ i) fun found hfound => ?_
    obtain ⟨t, htoken, -⟩ := exists_token (lt_size_of_findNext hfound)
    rw [token_eq htoken, ok_bind, htoken]
    exact andThen_eq (ih found) fun ts _ => rfl

/-- As many parts are found as are asked for, and all of them are tokens of the stream. -/
theorem length_of_parts? {ks : List Kind} {parts : List Token}
    (h : StrictDeclaration.parts? s ks i = some parts) :
    parts.length = ks.length ∧ ∀ t ∈ parts, t ∈ s.tokens := by
  induction ks generalizing i parts with
  | nil =>
    obtain rfl := Option.some.inj h
    simp
  | cons k ks ih =>
    obtain ⟨found, -, hfound⟩ := Option.bind_eq_some_iff.1 h
    obtain ⟨t, htoken, hrest⟩ := Option.bind_eq_some_iff.1 hfound
    obtain ⟨ts, hts, heq⟩ := Option.bind_eq_some_iff.1 hrest
    obtain rfl := Option.some.inj heq
    obtain ⟨hlength, hmem⟩ := ih hts
    refine ⟨congrArg (· + 1) hlength, fun u hu => ?_⟩
    rcases List.mem_cons.1 hu with rfl | hu
    · exact Array.mem_of_getElem? htoken
    · exact hmem u hu

/-- Tokens of the stream are compared in their places without a sum too large. -/
theorem adjacent_eq (hs : s.Fits) (line : Nat) {previous : Token} {ts : List Token}
    (hprevious : previous ∈ s.tokens) (hts : ∀ t ∈ ts, t ∈ s.tokens) :
    adjacent line previous ts =
      .ok (StrictDeclaration.adjacent line previous.endColumn ts) := by
  induction ts generalizing previous with
  | nil => rfl
  | cons t ts ih =>
    have hrest := ih (hts t List.mem_cons_self) fun u hu => hts u (List.mem_cons_of_mem t hu)
    have hend : plus previous.column previous.length = .ok previous.endColumn :=
      plus_eq (endColumn_lt hs hprevious)
    rw [adjacent, hend, ok_bind, hrest, StrictDeclaration.adjacent]
    by_cases hline : t.line = line
    · by_cases hcolumn : t.column = previous.endColumn <;> simp [hline, hcolumn]
    · simp [hline]

/-- The declaration has six parts, of which the second and the fourth are compared with a text. -/
theorem exists_six_of_length {parts : List Token} (h : parts.length = 6) :
    ∃ a b c d e f, parts = [a, b, c, d, e, f] := by
  obtain ⟨a, tail, rfl⟩ := List.exists_cons_of_length_eq_add_one h
  replace h := Nat.succ.inj h
  obtain ⟨b, tail, rfl⟩ := List.exists_cons_of_length_eq_add_one h
  replace h := Nat.succ.inj h
  obtain ⟨c, tail, rfl⟩ := List.exists_cons_of_length_eq_add_one h
  replace h := Nat.succ.inj h
  obtain ⟨d, e, f, rfl⟩ := List.length_eq_three.1 h
  exact ⟨a, b, c, d, e, f, rfl⟩

/-- A declaration is compared with what it has to be, and its parts are there when they are taken. -/
theorem wellFormed_eq (hs : s.Fits) (index : Nat) {keyword : Token}
    (hkeyword : keyword ∈ s.tokens) :
    wellFormed s index keyword = .ok (StrictDeclaration.wellFormed s index keyword) := by
  rw [wellFormed, parts?_eq, ok_bind, StrictDeclaration.wellFormed]
  cases hparts : StrictDeclaration.parts? s (StrictDeclaration.shape.map Prod.fst) index with
  | none => rfl
  | some parts =>
    obtain ⟨hlength, hmem⟩ := length_of_parts? hparts
    obtain ⟨a, b, c, d, e, f, rfl⟩ := exists_six_of_length hlength
    dsimp only
    rw [adjacent_eq hs keyword.line hkeyword hmem]
    simp only [part, StrictDeclaration.shape, List.getElem?_cons_succ, List.getElem?_cons_zero,
      List.zip_cons_cons, List.zip_nil_left, List.all_cons, List.all_nil, Option.all_some,
      Option.all_none, Bool.true_and, Bool.and_true, ok_bind, pure_eq]
    generalize "strict_types".toList = name
    by_cases hname : b.content = name
    · by_cases hvalue : d.content = ['1'] <;> simp [hname, hvalue]
    · simp [hname]

/-- **The declaration of strict types is looked for without an access out of range.** -/
theorem strictFailure?_eq (hs : s.Fits) (i : Nat) :
    strictFailure? s i = .ok (StrictDeclaration.failure? s i) := by
  rw [strictFailure?, findNext_eq, ok_bind, StrictDeclaration.failure?]
  cases hfound : s.findNext (· == .keyword .kwDeclare) i with
  | none => rfl
  | some index =>
    -- The keyword stands at the index or behind it, so that there is a token at the index.
    have hle := (TokenStream.findNext_eq_some_iff.1 hfound).1
    have hlt := lt_size_of_findNext hfound
    obtain ⟨keyword, htoken, hmem⟩ := exists_token hlt
    have hline := line_le hs i
    dsimp only
    rw [look_eq (by omega), ok_bind, plus_eq (by omega), ok_bind, token_eq htoken, ok_bind, htoken,
      wellFormed_eq hs index hmem]
    dsimp only
    split
    · rfl
    split
    · rfl
    rw [ok_bind]
    split <;> rfl

/-- Whether an open tag stands before an index is told without a difference below zero. -/
theorem isBehindOpenTag_eq (hs : s.Fits) (i : Nat) :
    isBehindOpenTag s i = .ok (s.findBefore (· == .openTag) i).isSome := by
  unfold isBehindOpenTag
  split
  · next hpos =>
    rw [minus_eq hpos, ok_bind, findPrevious_eq hs, TokenStream.findPrevious,
      Nat.sub_add_cancel hpos]
    rfl
  · next hpos =>
    obtain rfl := Nat.eq_zero_of_not_pos hpos
    simp [TokenStream.findBefore, TokenStream.findBelow]

/-- **An open tag is judged without an access out of range.**. -/
theorem strictDeclaration_eq (hs : ctx.stream.Fits) (i : Nat) :
    strictDeclaration ctx i = .ok (StrictDeclaration.findings ctx i) := by
  rw [strictDeclaration, isBehindOpenTag_eq hs, ok_bind, strictFailure?_eq hs,
    StrictDeclaration.findings]
  split
  · rfl
  · rw [ok_bind]
    cases StrictDeclaration.failure? ctx.stream i <;> rfl

end StrictDeclaration

end PhpLint.Checked

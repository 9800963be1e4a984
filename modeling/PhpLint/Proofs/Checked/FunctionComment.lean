import PhpLint.Proofs.Checked.ReturnType
import PhpLint.Proofs.Checked.Table
import PhpLint.Sniff.FunctionComment

/-!
# Comments of functions with checked accesses

The check for the comments of functions takes most of its tokens by an index that a search has found.
The others are those at the index of its keyword, and those between that keyword and the end of its
body, along which the cursor goes that collects the statements.  The text of a return tag is asked for
two tokens behind the tag, where there may be none.

`functionComment_eq` puts the readings of the parts together.
-/

namespace PhpLint.Checked

open TokenStream (Fits)

variable {s : TokenStream} {ctx : FileContext} {i j : Nat}

/-! ## The comment above a function -/

/-- The comment at an index, or what stands before it if that is on the same line. -/
def behindTrailing (s : TokenStream) (nearest : Nat) : Checked Nat := do
  if ← look s nearest (·.isAt · .comment) then
    match ← findBefore s FunctionComment.hidesComment nearest with
    | some previous =>
      let line ← look s previous TokenStream.line
      return if line = (← look s nearest TokenStream.line) then previous else nearest
    | none => return nearest
  else return nearest

/-- The token that ends the comment above the function at an index. -/
def commentEnd? (s : TokenStream) (i : Nat) : Checked (Option Nat) :=
  andThen (findBefore s FunctionComment.hidesComment i) fun nearest => do
    let last ← behindTrailing s nearest
    if ← look s last fun s last => s.isAt last (.closes .docComment) || s.isAt last .comment then
      return some last
    else return none

/-- The modifiers before the function at an index, nearest first. -/
def modifiersBefore (s : TokenStream) (i : Nat) : Checked (List Kind) := do
  match ← previousSignificant s i with
  | none => return []
  | some previous =>
    match ← look s previous TokenStream.kind? with
    | some k =>
      if k.isModifier then
        if _h : previous < i then return k :: (← modifiersBefore s previous) else .error .stuck
      else return []
    | none => return []
termination_by i

/-- The function is a public test of a test class. -/
def isTestMethod (testClasses : List Text) (ctx : FileContext) (i : Nat) : Checked Bool := do
  let name ← declaredName? ctx.stream i
  if !name.any fun name => Text.startsWith "test".toList (Text.foldCase name) then return false
  let modifiers ← modifiersBefore ctx.stream i
  if modifiers.any fun k =>
    k == .keyword .kwProtected || k == .keyword .kwPrivate || k == .keyword .kwAbstract then
    return false
  return (← typeAt? ctx.symbols ctx.stream i).any fun symbol =>
    let ancestry := ctx.symbols.ancestors symbol.name
    testClasses.any ancestry.has || !ancestry.complete && ctx.isTest

/-- What the search before an index finds is a token of the stream. -/
theorem lt_size_of_findBefore {p : Kind → Bool} (h : s.findBefore p i = some j) : j < s.size :=
  (TokenStream.lt_of_findBefore h).2

/-- The end of the comment above a function is found from every index. -/
theorem commentEnd?_eq (hs : s.Fits) (i : Nat) :
    commentEnd? s i = .ok (FunctionComment.commentEnd? s i) := by
  refine andThen_eq (findBefore_eq hs _ i) fun nearest hnearest => ?_
  have hlt := lt_size_of_findBefore hnearest
  let last :=
    if s.isAt nearest .comment then
      match s.findBefore FunctionComment.hidesComment nearest with
      | some previous => if s.line previous = s.line nearest then previous else nearest
      | none => nearest
    else nearest
  have hlast : behindTrailing s nearest = .ok last ∧ last < s.size := by
    unfold last
    rw [behindTrailing, look_eq hlt, ok_bind, findBefore_eq hs, ok_bind]
    split
    · cases hprevious : s.findBefore FunctionComment.hidesComment nearest with
      | none => exact ⟨rfl, hlt⟩
      | some previous =>
        have hlt' := lt_size_of_findBefore hprevious
        dsimp only
        rw [look_eq hlt', ok_bind, look_eq hlt, ok_bind]
        split
        · exact ⟨rfl, hlt'⟩
        · exact ⟨rfl, hlt⟩
    · exact ⟨rfl, hlt⟩
  rw [hlast.1, ok_bind, look_eq hlast.2, ok_bind]
  exact (apply_ite Except.ok _ (some last) none).symm

/-- The modifiers before a function are gathered, and the loop that gathers them goes back with each. -/
theorem modifiersBefore_eq (hs : s.Fits) (i : Nat) :
    modifiersBefore s i = .ok (FunctionComment.modifiersBefore s i) := by
  fun_induction FunctionComment.modifiersBefore s i with
  | case1 i hprevious =>
    rw [modifiersBefore, previousSignificant_eq hs, hprevious]
    rfl
  | case2 i previous hprevious k hk hmodifier ih =>
    have hlt := TokenStream.lt_of_findBefore hprevious
    rw [modifiersBefore, previousSignificant_eq hs, hprevious]
    simp only [ok_bind, look_eq hlt.2, hk, if_pos hmodifier, dif_pos hlt.1, ih, pure_eq]
  | case3 i previous hprevious k hk hmodifier =>
    have hlt := TokenStream.lt_of_findBefore hprevious
    rw [modifiersBefore, previousSignificant_eq hs, hprevious]
    simp only [ok_bind, look_eq hlt.2, hk, if_neg hmodifier, pure_eq]
  | case4 i previous hprevious hk =>
    have hlt := TokenStream.lt_of_findBefore hprevious
    rw [modifiersBefore, previousSignificant_eq hs, hprevious]
    simp only [ok_bind, look_eq hlt.2, hk, pure_eq]

/-- A function of the stream is known to be a test or not. -/
theorem isTestMethod_eq (hs : ctx.stream.Fits) (testClasses : List Text)
    (hi : i < ctx.stream.size) :
    isTestMethod testClasses ctx i = .ok (FunctionComment.isTestMethod testClasses ctx i) := by
  have hsize := hs.size
  rw [isTestMethod, declaredName?_eq hs (by omega), ok_bind, modifiersBefore_eq hs,
    typeAt?_eq hs _ (Nat.le_of_lt hi), FunctionComment.isTestMethod]
  dsimp only
  -- The answer is no if the first test fails, and if the second does.
  cases (ctx.stream.declaredName? i).any fun name =>
      Text.startsWith "test".toList (Text.foldCase name) with
  | false => rfl
  | true =>
    rw [ok_bind]
    cases (FunctionComment.modifiersBefore ctx.stream i).any fun k =>
      k == .keyword .kwProtected || k == .keyword .kwPrivate || k == .keyword .kwAbstract <;> rfl

/-! ## The statements that return -/

/-- The keyword at the index starts a closure or an anonymous class. -/
def startsNested (s : TokenStream) (i : Nat) : Checked Bool :=
  isClosure s i <||> isAnonymousClass s i

/-- The end of the nested body that starts at an index. -/
def nestedEnd? (s : TokenStream) (i : Nat) : Checked (Option Nat) := do
  if ← startsNested s i then bodyCloser? s i else return none

/-- What the cursor finds at an index, and the last index that it has come past then. -/
def returnsAt (s : TokenStream) (i : Nat) : Checked (List Nat × Nat) := do
  match ← nestedEnd? s i with
  | some closer => return ([], closer)
  | none => return (if ← look s i (·.has · FunctionComment.isReturn) then [i] else [], i)

/-- The statements that return between two indices, nested bodies left out. -/
def returnsFrom (s : TokenStream) (stop i : Nat) : Checked (List Nat) := do
  if _h : i < stop then
    let (found, last) ← returnsAt s i
    let next ← plus last 1
    if _h : i < next then return found ++ (← returnsFrom s stop next) else .error .stuck
  else return []
termination_by stop - i

/-- The statement returns a value: no semicolon follows it. -/
def returnsValue (s : TokenStream) (statement : Nat) : Checked Bool := do
  match ← findNext s (· != .whitespace) (← plus statement 1) with
  | some next => return !(← look s next (·.isAt · .semicolon))
  | none => return true

/-- The first statement that returns a value. -/
def firstValue? (s : TokenStream) : List Nat → Checked (Option Nat)
  | [] => return none
  | statement :: statements => do
    if ← returnsValue s statement then return some statement
    firstValue? s statements

/-- The end of a nested body is found at a token of the stream. -/
theorem nestedEnd?_eq (hs : s.Fits) (hi : i < s.size) :
    nestedEnd? s i = .ok (FunctionComment.nestedEnd? s i) := by
  have hnested : startsNested s i = .ok (FunctionComment.startsNested s i) :=
    or_eq (isClosure_eq hs hi) fun _ => isAnonymousClass_eq hs hi
  rw [nestedEnd?, hnested, ok_bind, FunctionComment.nestedEnd?]
  split
  · exact bodyCloser?_eq hs hi
  · rfl

/-- A nested body ends behind where it starts, and in the stream. -/
theorem lt_of_nestedEnd? (h : FunctionComment.nestedEnd? s i = some j) : i < j ∧ j < s.size := by
  unfold FunctionComment.nestedEnd? at h
  split at h
  · exact ⟨TokenStream.lt_of_bodyCloser? h, lt_size_of_bodyCloser? h⟩
  · cases h

/-- The statements of a body that lies in the stream are gathered, and the loop that gathers them never
stands still. -/
theorem returnsFrom_eq (hs : s.Fits) {stop : Nat} (hstop : stop < s.size) (i : Nat) :
    returnsFrom s stop i = .ok (FunctionComment.returnsFrom s stop i) := by
  have hsize := hs.size
  fun_induction FunctionComment.returnsFrom s stop i with
  | case1 i hi closer hnested ih =>
    have hlt : i < s.size := Nat.lt_trans hi hstop
    have hcloser := lt_of_nestedEnd? hnested
    rw [returnsFrom, dif_pos hi, returnsAt, nestedEnd?_eq hs hlt, hnested]
    simp only [ok_bind, pure_eq]
    rw [plus_eq (by omega), ok_bind, dif_pos (by omega), ih]
    rfl
  | case2 i hi hnested ih =>
    have hlt : i < s.size := Nat.lt_trans hi hstop
    rw [returnsFrom, dif_pos hi, returnsAt, nestedEnd?_eq hs hlt, hnested]
    simp only [ok_bind, look_eq hlt, pure_eq]
    rw [plus_eq (by omega), ok_bind, dif_pos (by omega), ih]
    rfl
  | case3 i hi =>
    rw [returnsFrom, dif_neg hi]
    rfl

/-- A statement of the stream is known to return a value or not. -/
theorem returnsValue_eq (hs : s.Fits) (hi : i < s.size) :
    returnsValue s i = .ok (FunctionComment.returnsValue s i) := by
  have hsize := hs.size
  rw [returnsValue, plus_eq (by omega), ok_bind, findNext_eq, ok_bind,
    FunctionComment.returnsValue]
  cases hnext : s.findNext (· != .whitespace) (i + 1) with
  | none => rfl
  | some next =>
    dsimp only
    rw [look_eq (lt_size_of_findNext hnext)]
    rfl

/-- The first statement that returns a value is found among statements of the stream. -/
theorem firstValue?_eq (hs : s.Fits) {statements : List Nat} (h : ∀ i ∈ statements, i < s.size) :
    firstValue? s statements = .ok (statements.find? (FunctionComment.returnsValue s)) := by
  induction statements with
  | nil => rfl
  | cons statement statements ih =>
    have hfirst := h statement List.mem_cons_self
    have hrest := ih fun i hi => h i (List.mem_cons_of_mem statement hi)
    rw [firstValue?, returnsValue_eq hs hfirst, ok_bind, hrest, List.find?_cons]
    cases FunctionComment.returnsValue s statement <;> rfl

/-- What is gathered from a body is a keyword that returns. -/
theorem has_isReturn_of_mem {stop : Nat} (h : j ∈ FunctionComment.returnsFrom s stop i) :
    s.has j FunctionComment.isReturn = true := by
  fun_induction FunctionComment.returnsFrom s stop i with
  | case1 i hi closer hnested ih => exact ih h
  | case2 i hi hnested ih =>
    rcases List.mem_append.1 h with hhere | hbehind
    · split at hhere
      · next hreturn => rwa [List.mem_singleton.1 hhere]
      · cases hhere
    · exact ih hbehind
  | case3 i hi => cases h

/-! ## Return tags -/

/-- The findings about a body, given the type that the return tag says. -/
def bodyFindings (type : Text) (s : TokenStream) (tag : Nat) (statements : List Nat) :
    Checked (List Finding) := do
  if type = "void".toList then
    match ← firstValue? s statements with
    | some statement =>
      return [{ index := tag, reason := "InvalidReturnVoid",
                message := "Function return type is void, but function contains return statement",
                labels := [(statement, "value returned here")] }]
    | none => return []
  else if type == "mixed".toList || (ReturnType.alternatives type).contains "void".toList then
    return []
  else
    match statements.head? with
    | none =>
      return [{ index := tag, reason := "InvalidNoReturn",
                message :=
                  "Function return type is not void, but function has no return statement" }]
    | some first =>
      if ← returnsValue s first then return []
      else
        return [{ index := first, reason := "InvalidReturnNotVoid",
                  message :=
                    "Function return type is not void, but function is returning void here",
                  labels := [(tag, s!"declared as `{String.ofList type}`")] }]

/-- The text of the tag at an index, if the stream goes on that far. -/
def tagText? (s : TokenStream) (tag : Nat) : Checked (Option Text) := do
  return (s.token? (← plus tag 2)).bind fun t =>
    if t.kind = .docText ∧ t.content ≠ [] then some t.content else none

/-- The findings about the return tags in a function's comment. -/
def returnFindings (s : TokenStream) (i closer : Nat) (tags : List Nat) :
    Checked (List Finding) := do
  let name ← declaredName? s i
  match ← keep (look s · (·.content · == "@return".toList)) tags with
  | first :: duplicate :: _ =>
    return [{ index := duplicate, reason := "DuplicateReturn",
              message := "Only 1 @return tag is allowed in a function comment",
              labels := [(first, "first @return tag")] }]
  | returns =>
    if FunctionComment.isSpecial (name.getD []) then return []
    else match returns with
      | [] =>
        return [{ index := closer, reason := "MissingReturn",
                  message := "Missing @return tag in function comment" }]
      | tag :: _ =>
        match ← tagText? s tag with
        | none =>
          return [{ index := tag, reason := "MissingReturnType",
                    message := "Return type missing for @return tag in function comment" }]
        | some text =>
          match ← bodyCloser? s i with
          | none => return []
          | some bodyEnd =>
            let type ← returnType text
            bodyFindings type s tag (← returnsFrom s bodyEnd (← plus i 1))

/-- A body is compared with its return tag, as long as its statements are in the stream. -/
theorem bodyFindings_eq (hs : s.Fits) (type : Text) (tag : Nat) {statements : List Nat}
    (h : ∀ i ∈ statements, i < s.size) :
    bodyFindings type s tag statements =
      .ok (FunctionComment.bodyFindings type s tag statements) := by
  have hany : (type == "mixed".toList || (ReturnType.alternatives type).contains "void".toList) =
      true ↔ type = "mixed".toList ∨ "void".toList ∈ ReturnType.alternatives type := by
    rw [Bool.or_eq_true, beq_iff_eq, List.contains_iff_mem]
  unfold bodyFindings FunctionComment.bodyFindings
  simp only [hany]
  split
  · rw [firstValue?_eq hs h, ok_bind]
    cases statements.find? (FunctionComment.returnsValue s) <;> rfl
  split
  · rfl
  · cases statements with
    | nil => rfl
    | cons first rest =>
      rw [List.head?_cons]
      dsimp only
      rw [returnsValue_eq hs (h first List.mem_cons_self), ok_bind]
      split <;> rfl

/-- The text of a tag is asked for two tokens behind it, where there may be none. -/
theorem tagText?_eq (hs : s.Fits) (hi : i < s.size) :
    tagText? s i = .ok (FunctionComment.tagText? s i) := by
  have hsize := hs.size
  rw [tagText?, plus_eq (by omega)]
  rfl

/-- The text of a tag is the text of a token, so memory holds it. -/
theorem utf8Length_of_tagText? (hs : s.Fits) {text : Text}
    (h : FunctionComment.tagText? s i = some text) : Text.utf8Length text < 2 ^ 63 := by
  obtain ⟨t, htoken, ht⟩ := Option.bind_eq_some_iff.1 h
  split at ht
  · obtain rfl := Option.some.inj ht
    exact hs.content t (Array.mem_of_getElem? htoken)
  · cases ht

/-- Return tags are judged at a function of the stream, as long as the tags are in the stream. -/
theorem returnFindings_eq (hs : s.Fits) (hi : i < s.size) (closer : Nat) {tags : List Nat}
    (htags : ∀ tag ∈ tags, tag < s.size) :
    returnFindings s i closer tags = .ok (FunctionComment.returnFindings s i closer tags) := by
  have hsize := hs.size
  have hreturns : keep (look s · (·.content · == "@return".toList)) tags =
      .ok (tags.filter (s.content · == "@return".toList)) :=
    keep_eq fun tag htag => look_eq (htags tag htag) _
  have hmem : ∀ tag ∈ tags.filter (s.content · == "@return".toList), tag < s.size :=
    fun tag htag => htags tag (List.mem_filter.1 htag).1
  rw [returnFindings, declaredName?_eq hs (by omega), ok_bind, hreturns, ok_bind,
    FunctionComment.returnFindings]
  generalize tags.filter (s.content · == "@return".toList) = returns at hmem ⊢
  obtain _ | ⟨tag, _ | ⟨duplicate, returns⟩⟩ := returns
  · dsimp only
    split <;> rfl
  · have htag := hmem tag (List.mem_singleton_self tag)
    dsimp only
    rw [tagText?_eq hs htag, ok_bind, bodyCloser?_eq hs hi]
    split
    · rfl
    cases htext : FunctionComment.tagText? s tag with
    | none => rfl
    | some text =>
      dsimp only
      rw [ok_bind]
      cases hbody : s.bodyCloser? i with
      | none => rfl
      | some bodyEnd =>
        have hend := lt_size_of_bodyCloser? hbody
        dsimp only
        rw [returnType_eq (utf8Length_of_tagText? hs htext), ok_bind, plus_eq (by omega), ok_bind,
          returnsFrom_eq hs hend, ok_bind]
        exact bodyFindings_eq hs _ tag fun j hj =>
          TokenStream.lt_size_of_has (has_isReturn_of_mem hj)
  · rfl

/-! ## Other tags -/

/-- The reference to another place at an index says something on its line. -/
def isDescribed (s : TokenStream) (closer tag : Nat) : Checked Bool :=
  anyAt (findNextBefore s (· == .docText) tag closer) fun text => do
    let line ← look s text TokenStream.line
    return line == (← look s tag TokenStream.line)

/-- The findings about references to other places that say nothing. -/
def seeFindings (s : TokenStream) (closer : Nat) (tags : List Nat) : Checked (List Finding) := do
  let empty ← keep (fun tag =>
    look s tag (·.content · == "@see".toList) <&&> ((!·) <$> isDescribed s closer tag)) tags
  return empty.map fun tag =>
    { index := tag, reason := "EmptySees",
      message := "Content missing for @see tag in function comment" }

/-- An ancestor of the method's class declares the method. -/
def overrides (ctx : FileContext) (i : Nat) : Checked (Option Bool) :=
  andThen (declaredName? ctx.stream i) fun method =>
  andThen (typeAt? ctx.symbols ctx.stream i) fun symbol =>
    return ctx.symbols.inheritsMethod symbol.name method

/-- References are judged as long as their tags are in the stream. -/
theorem seeFindings_eq (closer : Nat) {tags : List Nat} (htags : ∀ tag ∈ tags, tag < s.size) :
    seeFindings s closer tags = .ok (FunctionComment.seeFindings s closer tags) := by
  have hempty (tag : Nat) (htag : tag ∈ tags) :
      (look s tag (·.content · == "@see".toList) <&&> ((!·) <$> isDescribed s closer tag)) =
        .ok (s.content tag == "@see".toList &&
          !(s.findNextBefore (· == .docText) tag closer).any fun text =>
            s.line text == s.line tag) := by
    have hlt := htags tag htag
    refine and_eq (look_eq hlt _) fun _ => map_eq (anyAt_eq (findNextBefore_eq s _ _ _) ?_) _
    intro text htext
    have hfound := (Option.filter_eq_some_iff.1 htext).1
    rw [look_eq (lt_size_of_findNext hfound), ok_bind, look_eq hlt]
    rfl
  rw [seeFindings, keep_eq hempty]
  rfl

/-- Whether a function overrides another is asked at a token of the stream. -/
theorem overrides_eq (hs : ctx.stream.Fits) (hi : i < ctx.stream.size) :
    overrides ctx i = .ok (FunctionComment.overrides ctx i) := by
  have hsize := hs.size
  refine andThen_eq (declaredName?_eq hs (by omega)) fun method _ => ?_
  exact andThen_eq (typeAt?_eq hs _ (Nat.le_of_lt hi)) fun symbol _ => rfl

/-! ## The check -/

/-- The findings in the doc comment from `opener` to `closer` above the function at an index. -/
def docFindings (ctx : FileContext) (i opener closer : Nat) : Checked (List Finding) := do
  let s := ctx.stream
  let tags ← docTags s opener
  let sees ← seeFindings s closer tags
  if Text.includes "@inheritdoc".toList (← textBetween s opener closer) then
    match ← overrides ctx i with
    | some false =>
      let returns ← returnFindings s i closer tags
      return sees ++
        { index := opener, reason := "InvalidInheritdoc",
          message := "No override method found for \x7b@inheritdoc\x7d annotation" } :: returns
    | _ => return sees
  else return sees ++ (← returnFindings s i closer tags)

/-- The findings at the function keyword at an index. -/
def functionComment (testClasses : List Text) (ctx : FileContext) (i : Nat) :
    Checked (List Finding) := do
  let s := ctx.stream
  if ← isClosure s i then return []
  match ← commentEnd? s i with
  | none =>
    if ← isTestMethod testClasses ctx i then return []
    return [{ index := i, reason := "Missing", message := "Missing function doc comment" }]
  | some closer =>
    if ← look s closer (·.isAt · .comment) then
      return [{ index := i, reason := "WrongStyle",
                message := "You must use \"/**\" style comments for a function comment" }]
    let below ← plus (← look s closer TokenStream.line) 1
    let spacing : List Finding :=
      if below = (← look s i TokenStream.line) then []
      else
        [{ index := closer, reason := "SpacingAfter",
           message := "There must be no blank lines after the function comment" }]
    match s.partner? closer with
    | some opener => return spacing ++ (← docFindings ctx i opener closer)
    | none => return spacing

/-- The doc comment above a function of the stream is judged, as long as it ends in the stream. -/
theorem docFindings_eq (hs : ctx.stream.Fits) (hi : i < ctx.stream.size) (opener : Nat)
    {closer : Nat} (hcloser : closer < ctx.stream.size) :
    docFindings ctx i opener closer = .ok (FunctionComment.docFindings ctx i opener closer) := by
  have htags : ∀ tag ∈ ctx.stream.docTags opener, tag < ctx.stream.size := fun tag htag =>
    lt_size_of_isAt (TokenStream.isAt_docTags _ _ tag htag)
  rw [docFindings, docTags_eq, ok_bind, seeFindings_eq closer htags, ok_bind, textBetween_eq hcloser, ok_bind,
    overrides_eq hs hi, ok_bind, returnFindings_eq hs hi closer htags,
    FunctionComment.docFindings]
  split
  · obtain _ | _ | _ := FunctionComment.overrides ctx i
    · exact congrArg Except.ok (List.append_nil _).symm
    · rfl
    · exact congrArg Except.ok (List.append_nil _).symm
  · rfl

/-- What ends a comment is a token of the stream. -/
theorem lt_size_of_commentEnd? (h : FunctionComment.commentEnd? s i = some j) : j < s.size := by
  obtain ⟨nearest, -, hlast⟩ := Option.bind_eq_some_iff.1 h
  obtain ⟨hends, heq⟩ := Option.ite_none_right_eq_some.1 hlast
  rw [Option.some.inj heq, Bool.or_eq_true] at hends
  rcases hends with hat | hat
  · exact lt_size_of_isAt hat
  · exact lt_size_of_isAt hat

/-- **The comment of a function is checked without an access out of range.** -/
theorem functionComment_eq (hs : ctx.stream.Fits) (testClasses : List Text)
    (hi : i < ctx.stream.size) :
    functionComment testClasses ctx i = .ok (FunctionComment.findings testClasses ctx i) := by
  rw [functionComment]
  dsimp only
  rw [isClosure_eq hs hi, ok_bind, commentEnd?_eq hs, ok_bind, FunctionComment.findings]
  dsimp only
  split
  · rfl
  cases hend : FunctionComment.commentEnd? ctx.stream i with
  | none =>
    dsimp only
    rw [isTestMethod_eq hs testClasses hi, ok_bind]
    split <;> rfl
  | some closer =>
    have hlt := lt_size_of_commentEnd? hend
    have hline := line_le hs closer
    dsimp only
    rw [look_eq hlt, ok_bind]
    split
    · rfl
    rw [look_eq hlt, ok_bind, plus_eq (by omega), ok_bind, look_eq hi, ok_bind]
    cases ctx.stream.partner? closer with
    | none => exact congrArg Except.ok (List.append_nil _).symm
    | some opener =>
      dsimp only
      rw [docFindings_eq hs hi opener hlt]
      rfl

end PhpLint.Checked

import PhpLint.Proofs.FunctionComment.Returns
import PhpLint.Proofs.Layout.Declaration
import PhpLint.Proofs.Layout.Stretch
import PhpLint.Proofs.LineEnds.FunctionComment

/-!
# Comments of functions in streams of one code

Two versions of a file that differ in layout alone are checked alike at functions with the same comment
above them (`reasons_of_relaid`).  What is read off the code has been compared token by token: the
statements that return match (`returnsFrom_matches`), and the type around the function is the same.  What
is read off the comment stands in a stretch of the same tokens.

In one place a comment counts as code: a return is bare when a semicolon is the first token behind it that
is not white space, so a comment between the two makes a value of nothing (`returnsValue_eq_false_iff`).
The versions must agree on where such comments stand.
-/

namespace PhpLint

/-- Two versions of a file of a project that have the same code. -/
structure FileContext.Relaid (ctx ctx' : FileContext) : Prop where
  stream : TokenStream.ofSource ctx.source = .ok ctx.stream
  stream' : TokenStream.ofSource ctx'.source = .ok ctx'.stream
  code : ctx'.stream.code = ctx.stream.code
  names : ctx.stream.SameNames ctx'.stream
  /-- The other files of the project are the same. -/
  symbols : ∃ before after, ctx.symbols = .ofStreams (before ++ ctx.stream :: after) ∧
    ctx'.symbols = .ofStreams (before ++ ctx'.stream :: after)
  path : ctx'.path = ctx.path

/-- The table of the project is the same for both versions. -/
theorem FileContext.Relaid.symbols_eq {ctx ctx' : FileContext} (h : ctx.Relaid ctx') :
    ctx'.symbols = ctx.symbols := by
  obtain ⟨before, after, hsymbols, hsymbols'⟩ := h.symbols
  rw [hsymbols, hsymbols', SymbolTable.ofStreams_matches h.stream h.stream' h.code h.names]

namespace FunctionComment

open TokenStream (Matches Level DocGroup SameTokens SamePlace)

variable {s s' : TokenStream} {i i' : Nat}

/-! ## Statements that return -/

/-- Between a return and the semicolon that ends it stands something other than white space. -/
def isInterrupted (s : TokenStream) (statement : Nat) : Bool :=
  (s.nextSignificant statement).any fun stop =>
    s.isAt stop .semicolon &&
      (List.range' (statement + 1) (stop - (statement + 1))).any (!s.isAt · .whitespace)

/-- Only white space stands between a return and its semicolon when nothing interrupts it. -/
theorem isInterrupted_eq_false_iff {statement stop : Nat} (hstop : s.nextSignificant statement = some stop)
    (hat : s.isAt stop .semicolon = true) :
    isInterrupted s statement = false ↔
      ∀ k, statement < k → k < stop → s.isAt k .whitespace = true := by
  rw [isInterrupted, hstop, Option.any_some, hat, Bool.true_and, List.any_eq_false]
  simp only [List.mem_range'_1, Bool.not_eq_true', Bool.not_eq_false]
  exact ⟨fun h k hk hkstop => h k (by omega), fun h k hk => h k (by omega) (by omega)⟩

/-- White space stands at an index of the stream when nothing else does. -/
theorem isAt_whitespace_iff {k : Nat} (hk : k < s.size) :
    s.isAt k .whitespace = true ↔ s.has k (· != .whitespace) = false := by
  obtain ⟨kind, hkind⟩ := TokenStream.exists_kind? hk
  rw [TokenStream.isAt, TokenStream.has, hkind, Option.any_some, bne_eq_false_iff_eq, beq_iff_eq,
    Option.some.injEq]

/-- A statement returns nothing when a semicolon is the next token of the code, and only white space
stands before it. -/
theorem returnsValue_eq_false_iff (s : TokenStream) (statement : Nat) :
    returnsValue s statement = false ↔ ∃ stop, s.nextSignificant statement = some stop ∧
      s.isAt stop .semicolon = true ∧ isInterrupted s statement = false := by
  constructor
  · intro h
    unfold returnsValue at h
    cases hfound : s.findNext (· != .whitespace) (statement + 1) with
    | none =>
      rw [hfound] at h
      cases h
    | some stop =>
      rw [hfound, Option.all_some, Bool.not_eq_false'] at h
      obtain ⟨hle, hstop, hbetween⟩ := TokenStream.findNext_eq_some_iff.1 hfound
      have hsize := TokenStream.lt_size_of_has hstop
      have hspace (k : Nat) (hk : statement < k) (hkstop : k < stop) : s.isAt k .whitespace = true :=
        (isAt_whitespace_iff (by omega)).2 (hbetween k hk hkstop)
      have hnext : s.nextSignificant statement = some stop := by
        refine TokenStream.findNext_eq_some_iff.2 ⟨hle, TokenStream.has_of_isAt h _, ?_⟩
        exact fun k hk hkstop => TokenStream.has_of_isAt (hspace k hk hkstop) _
      exact ⟨stop, hnext, h, (isInterrupted_eq_false_iff hnext h).2 hspace⟩
  · rintro ⟨stop, hnext, hat, hspace⟩
    rw [isInterrupted_eq_false_iff hnext hat] at hspace
    have hlt := TokenStream.lt_of_nextSignificant hnext
    have hfound : s.findNext (· != .whitespace) (statement + 1) = some stop := by
      refine TokenStream.findNext_eq_some_iff.2 ⟨hlt.1, TokenStream.has_of_isAt hat _, ?_⟩
      exact fun k hk hkstop => (isAt_whitespace_iff (by omega)).1 (hspace k hk hkstop)
    rw [returnsValue, hfound, Option.all_some, hat]
    rfl

section SameCode

variable (hcode : s'.code = s.code)
include hcode

/-- Returns that match give a value alike, if they are interrupted alike. -/
theorem returnsValue_matches {statement statement' : Nat} (h : Matches s s' statement statement')
    (hbare : isInterrupted s' statement' = isInterrupted s statement) :
    returnsValue s' statement' = returnsValue s statement := by
  have hiff : returnsValue s' statement' = false ↔ returnsValue s statement = false := by
    rw [returnsValue_eq_false_iff, returnsValue_eq_false_iff, hbare]
    have hnext := h.nextSignificant hcode
    generalize s.nextSignificant statement = stop?, s'.nextSignificant statement' = stop?' at hnext
    cases hnext with
    | none => simp
    | some hstop => simp [hstop.isAt hcode]
  rw [Bool.eq_iff_iff, ← Bool.not_eq_false, ← Bool.not_eq_false, hiff]

/-- A nested declaration starts at the one token as at the other. -/
theorem startsNested_matches (h : Matches s s' i i') : startsNested s' i' = startsNested s i := by
  rw [startsNested, startsNested, h.isClosure hcode, h.isAnonymousClass hcode]

end SameCode

/-- What is not significant is no statement. -/
theorem returnsFrom_of_trivia {stop : Nat} (hlt : i < stop) (hi : s.has i Kind.isSignificant = false) :
    returnsFrom s stop i = returnsFrom s stop (i + 1) := by
  have hplain : nestedEnd? s i = none := by
    rw [nestedEnd?, startsNested, TokenStream.isClosure, TokenStream.isAnonymousClass,
      TokenStream.not_isAt_keyword hi, TokenStream.not_isAt_keyword hi, Bool.false_and,
      Bool.false_and, Bool.or_self, if_neg Bool.false_ne_true]
  have hreturn : ¬s.has i isReturn = true := by
    intro hreturn
    refine Bool.false_ne_true (hi.symm.trans (TokenStream.has_mono (fun k hk => ?_) hreturn))
    simp only [isReturn, Bool.or_eq_true, beq_iff_eq] at hk
    rcases hk with (rfl | rfl) | rfl <;> rfl
  rw [returnsFrom_of_plain hlt hplain, if_neg hreturn, List.nil_append]

section Sources

variable {source source' : Text} (hs : TokenStream.ofSource source = .ok s)
  (hs' : TokenStream.ofSource source' = .ok s') (hcode : s'.code = s.code)
include hs hs' hcode

/-- Nested declarations end at tokens that match. -/
theorem nestedEnd?_matches (h : Matches s s' i i') :
    Option.Rel (Matches s s') (nestedEnd? s i) (nestedEnd? s' i') := by
  unfold nestedEnd?
  rw [startsNested_matches hcode h]
  split
  · exact h.bodyCloser? hs hs' hcode
  · exact .none

/-- The statements that return match one by one. -/
theorem returnsFrom_matches {stop stop' : Nat} (hstop : Matches s s' stop stop')
    (h : Level s s' i i') :
    List.Forall₂ (Matches s s') (returnsFrom s stop i) (returnsFrom s' stop' i') := by
  refine h.induct (P := fun i i' => List.Forall₂ (Matches s s') (returnsFrom s stop i)
    (returnsFrom s' stop' i')) hstop ?skip ?skip' ?step ?past
  case skip =>
    intro i i' hlt hi ih
    rwa [returnsFrom_of_trivia hlt hi]
  case skip' =>
    intro i i' hlt hi ih
    rwa [returnsFrom_of_trivia hlt hi]
  case step =>
    intro i i' hlt hlt' hmatch ih
    have hnested := nestedEnd?_matches hs hs' hcode hmatch
    generalize hend : nestedEnd? s i = closer?, hend' : nestedEnd? s' i' = closer?' at hnested
    cases hnested with
    | some hcloser =>
      rw [returnsFrom_of_nested hlt hend, returnsFrom_of_nested hlt' hend']
      have hafter := TokenStream.lt_of_bodyCloser? (nestedEnd?_eq_some_iff.1 hend).2
      exact ih _ _ (Nat.lt_succ_of_lt hafter) hcloser.level_succ
    | none =>
      rw [returnsFrom_of_plain hlt hend, returnsFrom_of_plain hlt' hend', hmatch.has hcode]
      refine List.rel_append ?_ (ih _ _ (Nat.lt_succ_self i) hmatch.level_succ)
      split
      · exact .cons hmatch .nil
      · exact .nil
  case past =>
    intro i i' hge hge'
    rw [returnsFrom_of_not_lt hge, returnsFrom_of_not_lt hge']
    exact .nil

end Sources

/-! ## Findings about the return type -/

/-- The statements that return from two functions return values alike, one by one. -/
def ReturnAlike (s s' : TokenStream) (i i' : Nat) : Prop :=
  Option.Rel (fun stop stop' => List.Forall₂ (fun r r' => returnsValue s' r' = returnsValue s r)
    (returnsFrom s stop (i + 1)) (returnsFrom s' stop' (i' + 1)))
    (s.bodyCloser? i) (s'.bodyCloser? i')

/-- The reasons are told by which of the statements return a value. -/
theorem reasons_bodyFindings (type : Text) (tag tag' : Nat) {statements statements' : List Nat}
    (h : List.Forall₂ (fun r r' => returnsValue s' r' = returnsValue s r) statements statements') :
    (bodyFindings type s' tag' statements').map Finding.reason =
      (bodyFindings type s tag statements).map Finding.reason := by
  unfold bodyFindings
  by_cases hvoid : type = "void".toList
  · rw [if_pos hvoid, if_pos hvoid]
    have hfound := List.find?_rel (p := returnsValue s) (q := returnsValue s') (fun _ _ hr => hr) h
    generalize statements.find? (returnsValue s) = found?,
      statements'.find? (returnsValue s') = found?' at hfound
    cases hfound <;> rfl
  · rw [if_neg hvoid, if_neg hvoid]
    by_cases hmixed : type = "mixed".toList ∨ "void".toList ∈ ReturnType.alternatives type
    · rw [if_pos hmixed, if_pos hmixed]
    · rw [if_neg hmixed, if_neg hmixed]
      cases h with
      | nil => rfl
      | cons hfirst _ =>
        dsimp only
        rw [hfirst]
        split <;> rfl

section Comment

variable {o o' x len : Nat} (hsame : SameTokens s s' o o' len)
include hsame

/-- The text behind a tag is the same in both streams. -/
theorem tagText?_same {tag tag' : Nat} (htag : SamePlace o o' (x - 1) tag tag') (hpos : 0 < x)
    (hx : x < len) : tagText? s' tag' = tagText? s tag := by
  obtain ⟨k, hk, rfl, rfl⟩ := htag
  have htext (s : TokenStream) (i : Nat) : tagText? s i = (s.lexeme? (i + 2)).bind fun l =>
      if l.kind = .docText ∧ l.text ≠ [] then some l.text else none := by
    rw [tagText?, TokenStream.lexeme?, Option.bind_map]
    rfl
  rw [htext, htext, Nat.add_assoc, Nat.add_assoc, hsame (k + 2) (by omega)]

/-- The tags of one sort stand at the same places. -/
theorem filter_content_same (word : Text) {tags tags' : List Nat} (hx : x < len)
    (htags : List.Forall₂ (SamePlace o o' (x - 1)) tags tags') :
    List.Forall₂ (SamePlace o o' (x - 1)) (tags.filter (s.content · == word))
      (tags'.filter (s'.content · == word)) := by
  refine List.rel_filter ?_ htags
  rintro _ _ ⟨k, hk, rfl, rfl⟩
  dsimp only
  rw [hsame.content (by omega)]

/-- Below the same comment the findings about its return tags have the same reasons, if the bodies return
values at the same statements. -/
theorem reasons_returnFindings {tags tags' : List Nat} (hpos : 0 < x) (hx : x < len)
    (htags : List.Forall₂ (SamePlace o o' (x - 1)) tags tags')
    (hname : s'.declaredName? i' = s.declaredName? i)
    (hreturns : ReturnAlike s s' i i') (closer closer' : Nat) :
    (returnFindings s' i' closer' tags').map Finding.reason =
      (returnFindings s i closer tags).map Finding.reason := by
  have hfound := filter_content_same hsame "@return".toList hx htags
  unfold returnFindings
  rw [hname]
  generalize tags.filter (s.content · == "@return".toList) = returns,
    tags'.filter (s'.content · == "@return".toList) = returns' at hfound ⊢
  cases hfound with
  | nil =>
    dsimp only
    split <;> rfl
  | cons htag hrest =>
    cases hrest with
    | cons _ _ => rfl
    | nil =>
      dsimp only
      rw [tagText?_same hsame htag hpos hx]
      split
      · rfl
      · cases tagText? s _ with
        | none => rfl
        | some text =>
          unfold ReturnAlike at hreturns
          generalize s.bodyCloser? i = stop?, s'.bodyCloser? i' = stop?' at hreturns ⊢
          cases hreturns with
          | none => rfl
          | some hreturns => exact reasons_bodyFindings (ReturnType.ofText text) _ _ hreturns

end Comment

section Sources

variable {source source' : Text} (hs : TokenStream.ofSource source = .ok s)
  (hs' : TokenStream.ofSource source' = .ok s') {o o' x len : Nat}
  (hsame : SameTokens s s' o o' len) (hsize : o + len < s.size)
include hs hs' hsame hsize

/-- Tokens of the stretch stand on one line in both streams or in neither. -/
theorem line_beq_same {k l : Nat} (hk : k ≤ len) (hl : l ≤ len) :
    (s'.line (o' + k) == s'.line (o' + l)) = (s.line (o + k) == s.line (o + l)) := by
  have hk := hsame.line hs hs' hk (by omega)
  have hl := hsame.line hs hs' hl (by omega)
  rw [Bool.eq_iff_iff, beq_iff_eq, beq_iff_eq]
  omega

/-- A tag is described on its line in both streams or in neither. -/
theorem isDescribed_same {tag tag' : Nat} (htag : SamePlace o o' (x - 1) tag tag') (hx : x < len) :
    isDescribed s' (o' + x) tag' = isDescribed s (o + x) tag := by
  obtain ⟨k, hk, rfl, rfl⟩ := htag
  refine Option.any_of_rel (hsame.findNextBefore (· == .docText) (by omega)) ?_
  rintro _ _ ⟨l, hl, rfl, rfl⟩
  exact line_beq_same hs hs' hsame hsize hl (by omega)

/-- The findings about the tags that refer to something have the same reasons. -/
theorem reasons_seeFindings {tags tags' : List Nat} (hx : x < len)
    (htags : List.Forall₂ (SamePlace o o' (x - 1)) tags tags') :
    (seeFindings s' (o' + x) tags').map Finding.reason =
      (seeFindings s (o + x) tags).map Finding.reason := by
  have hempty : List.Forall₂ (SamePlace o o' (x - 1))
      (tags.filter fun tag => s.content tag == "@see".toList && !isDescribed s (o + x) tag)
      (tags'.filter fun tag => s'.content tag == "@see".toList && !isDescribed s' (o' + x) tag) := by
    refine List.rel_filter (fun tag tag' htag => ?_) htags
    have hdescribed := isDescribed_same hs hs' hsame hsize htag hx
    obtain ⟨k, hk, rfl, rfl⟩ := htag
    dsimp only
    rw [hsame.content (by omega), hdescribed]
  unfold seeFindings
  dsimp only
  simp only [isDescribed] at hempty
  rw [List.map_map, List.map_map]
  simp only [Function.comp_def, List.map_const', hempty.length_eq]

end Sources

/-! ## The comment above a function -/

/-- The end of a doc comment is no comment of another style. -/
theorem not_isAt_comment (h : s.isAt i (.closes .docComment) = true) : ¬s.isAt i .comment = true := by
  rw [TokenStream.isAt, TokenStream.isAt_iff.1 h]
  decide

/-- The end of a doc comment above a function is the nearest token, or a comment that trails it is. -/
theorem lastBefore_eq_closer {nearest closer : Nat} (hcloser : s.isAt closer (.closes .docComment) = true)
    (h : lastBefore s nearest = closer) :
    nearest = closer ∨ s.isAt nearest .comment = true ∧
      s.findBefore hidesComment nearest = some closer ∧ s.line closer = s.line nearest := by
  unfold lastBefore at h
  by_cases hcomment : s.isAt nearest .comment = true
  · have hne : nearest ≠ closer := by
      rintro rfl
      exact not_isAt_comment hcloser hcomment
    rw [if_pos hcomment] at h
    cases hprevious : s.findBefore hidesComment nearest with
    | none =>
      rw [hprevious] at h
      exact absurd h hne
    | some previous =>
      rw [hprevious] at h
      dsimp only at h
      by_cases hline : s.line previous = s.line nearest
      · rw [if_pos hline] at h
        rw [h] at hline
        exact .inr ⟨hcomment, by rw [h], hline⟩
      · rw [if_neg hline] at h
        exact absurd h hne
  · rw [if_neg hcomment] at h
    exact .inl h

/-- A doc comment above a function ends before it. -/
theorem lt_of_commentEnd? {closer : Nat} (hcloser : s.isAt closer (.closes .docComment) = true)
    (h : commentEnd? s i = some closer) : closer < i := by
  rw [commentEnd?_eq] at h
  obtain ⟨nearest, hnearest, hend⟩ := Option.bind_eq_some_iff.1 h
  obtain ⟨-, hlast⟩ := Option.ite_none_right_eq_some.1 hend
  have hlt := (TokenStream.lt_of_findBefore hnearest).1
  rcases lastBefore_eq_closer hcloser (Option.some.inj hlast) with rfl | ⟨-, hprevious, -⟩
  · exact hlt
  · exact (TokenStream.lt_of_findBefore hprevious).1.trans hlt

section Sources

variable {source source' : Text} (hs : TokenStream.ofSource source = .ok s)
  (hs' : TokenStream.ofSource source' = .ok s') {o o' x len : Nat}
  (hsame : SameTokens s s' o o' len) (hsize : o + len < s.size)
include hs hs' hsame hsize

/-- A function that has its doc comment in the stretch has it there in the other stream. -/
theorem commentEnd?_same (hdoc : DocGroup s o (o + x))
    (hend : commentEnd? s (o + len) = some (o + x)) :
    commentEnd? s' (o' + len) = some (o' + x) := by
  have hx : x < len := Nat.lt_of_add_lt_add_left (lt_of_commentEnd? hdoc.closer hend)
  have hcloser' := (hsame.docGroup (Nat.le_of_lt hx) hdoc).closer
  suffices hnearest' : ∃ nearest', s'.findBefore hidesComment (o' + len) = some nearest' ∧
      lastBefore s' nearest' = o' + x by
    obtain ⟨nearest', hnearest', hlast'⟩ := hnearest'
    rw [commentEnd?_eq, hnearest', Option.bind_some, hlast', hcloser', Bool.true_or, if_pos rfl]
  rw [commentEnd?_eq] at hend
  obtain ⟨nearest, hnearest, hend⟩ := Option.bind_eq_some_iff.1 hend
  obtain ⟨-, hlast⟩ := Option.ite_none_right_eq_some.1 hend
  have hlt := (TokenStream.lt_of_findBefore hnearest).1
  rcases lastBefore_eq_closer hdoc.closer (Option.some.inj hlast) with
    rfl | ⟨hcomment, hprevious, hline⟩
  · refine ⟨o' + x, hsame.findBefore (Nat.le_refl len) (Nat.le_of_lt hx) hnearest, ?_⟩
    rw [lastBefore, if_neg (not_isAt_comment hcloser')]
  · -- The trailing comment lies in the stretch as well, on the line on which the doc comment ends.
    have hbehind := (TokenStream.lt_of_findBefore hprevious).1
    obtain ⟨z, rfl⟩ : ∃ z, nearest = o + z := ⟨nearest - o, by omega⟩
    have hz : z ≤ len := by omega
    refine ⟨o' + z, hsame.findBefore (Nat.le_refl len) hz hnearest, ?_⟩
    have hline' : s'.line (o' + x) = s'.line (o' + z) := by
      have hsameLine := line_beq_same hs hs' hsame hsize (Nat.le_of_lt hx) hz
      rw [beq_iff_eq.2 hline] at hsameLine
      exact beq_iff_eq.1 hsameLine
    rw [lastBefore, hsame.isAt hz, if_pos hcomment, hsame.findBefore hz (Nat.le_of_lt hx) hprevious]
    exact if_pos hline'

end Sources

/-! ## Findings about a function -/

/-- The same comment stands above two functions: the same tokens from a doc comment to the function, or
two comments of other styles, or none. -/
inductive SameAbove (s s' : TokenStream) (i i' : Nat) : Prop
  | doc {o o' x len : Nat} (hi : i = o + len) (hi' : i' = o' + len) (hdoc : DocGroup s o (o + x))
      (hend : commentEnd? s i = some (o + x)) (hsame : SameTokens s s' o o' len)
  | other {closer closer' : Nat} (hend : commentEnd? s i = some closer)
      (hend' : commentEnd? s' i' = some closer') (hcomment : s.isAt closer .comment = true)
      (hcomment' : s'.isAt closer' .comment = true)
  | none (hend : commentEnd? s i = none) (hend' : commentEnd? s' i' = none)

/-- A doc comment from its opener to the function, given by where it ends. -/
theorem SameAbove.of_partner? {source : Text} (hs : TokenStream.ofSource source = .ok s)
    {o o' x len : Nat} (hopener : s.isAt o (.opens .docComment) = true)
    (hpartner : s.partner? o = some (o + x)) (hend : commentEnd? s (o + len) = some (o + x))
    (hsame : SameTokens s s' o o' len) : SameAbove s s' (o + len) (o' + len) := by
  obtain ⟨closer, hdoc⟩ := (TokenStream.docGrouped_ofSource hs).closed o hopener
  obtain rfl := Option.some.inj (hdoc.partner?.1.symm.trans hpartner)
  exact .doc rfl rfl hdoc hend hsame

/-- The same bare returns of two bodies have a comment before their semicolons. -/
def SameBareReturns (s s' : TokenStream) (i : Nat) : Prop :=
  ∀ stop ∈ s.bodyCloser? i, ∀ r ∈ returnsFrom s stop (i + 1), ∀ r', Matches s s' r r' →
    isInterrupted s' r' = isInterrupted s r

/-- The returns of a body are found among the tokens that match. -/
theorem sameBareReturns_of_zip
    (h : (s.bodyCloser? i).all (fun stop => (returnsFrom s stop (i + 1)).all fun r =>
      (s.codeIndices.zip s'.codeIndices).all fun p =>
        p.1 != r || isInterrupted s' p.2 == isInterrupted s r) = true) : SameBareReturns s s' i := by
  intro stop hstop r hr r' hmatch
  rw [Option.mem_def.1 hstop, Option.all_some, List.all_eq_true] at h
  simpa using List.all_eq_true.1 (h r hr) _ hmatch.mem_zip

/-- The words in front of a function are the same. -/
theorem modifiersBefore_matches (hcode : s'.code = s.code) (h : Matches s s' i i') :
    modifiersBefore s' i' = modifiersBefore s i := by
  induction i using Nat.strongRecOn generalizing i' with
  | ind i ih =>
    rw [modifiersBefore_eq, modifiersBefore_eq s]
    have hbefore := h.previousSignificant hcode
    generalize hprevious : s.previousSignificant i = previous?,
      s'.previousSignificant i' = previous?' at hbefore ⊢
    cases hbefore with
    | none => rfl
    | some hbefore =>
      dsimp only
      rw [hbefore.kind? hcode, ih _ (TokenStream.lt_of_findBefore hprevious).1 hbefore]

section Contexts

variable {ctx ctx' : FileContext} (h : ctx.Relaid ctx') (hmatch : Matches ctx.stream ctx'.stream i i')
include h hmatch

theorem typeAt?_relaid : ctx'.symbols.typeAt? ctx'.stream i' = ctx.symbols.typeAt? ctx.stream i := by
  rw [h.symbols_eq,
    SymbolTable.typeAt?_matches h.stream h.stream' h.code h.names hmatch]

/-- The one function is a test when the other is. -/
theorem isTestMethod_matches (testClasses : List Text) :
    isTestMethod testClasses ctx' i' = isTestMethod testClasses ctx i := by
  unfold isTestMethod
  dsimp only
  rw [modifiersBefore_matches h.code hmatch, hmatch.declaredName? h.code, typeAt?_relaid h hmatch,
    h.symbols_eq, FileContext.isTest, h.path]
  rfl

/-- The one function overrides a method when the other does. -/
theorem overrides_matches : overrides ctx' i' = overrides ctx i := by
  unfold overrides
  rw [hmatch.declaredName? h.code, typeAt?_relaid h hmatch, h.symbols_eq]

/-- The two functions return values alike, where comments come between the same bare returns and their
semicolons. -/
theorem returnAlike_relaid (hbare : SameBareReturns ctx.stream ctx'.stream i) :
    ReturnAlike ctx.stream ctx'.stream i i' := by
  have hstop := hmatch.bodyCloser? h.stream h.stream' h.code
  unfold SameBareReturns at hbare
  unfold ReturnAlike
  generalize ctx.stream.bodyCloser? i = stop?, ctx'.stream.bodyCloser? i' = stop?' at hstop hbare ⊢
  cases hstop with
  | none => exact .none
  | @some stop stop' hstop =>
    have hreturns := returnsFrom_matches h.stream h.stream' h.code hstop hmatch.level_succ
    refine .some (((List.forall₂_and_left _ _).2 ⟨hbare stop rfl, hreturns⟩).imp ?_)
    rintro r r' ⟨hbare, hr⟩
    exact returnsValue_matches h.code hr (hbare r' hr)

/-- Below the same doc comment the findings have the same reasons, if the bodies return values at the same
statements. -/
theorem reasons_docFindings {o o' x len : Nat} (hsame : SameTokens ctx.stream ctx'.stream o o' len)
    (hsize : o + len < ctx.stream.size) (hx : x < len) (hdoc : DocGroup ctx.stream o (o + x))
    (hreturns : ReturnAlike ctx.stream ctx'.stream i i') :
    (docFindings ctx' i' o' (o' + x)).map Finding.reason =
      (docFindings ctx i o (o + x)).map Finding.reason := by
  have htags := hsame.docTags (Nat.le_of_lt hx) hdoc
  have hpos : 0 < x := Nat.pos_of_lt_add_right hdoc.lt
  have hfindings := reasons_returnFindings hsame hpos hx htags (hmatch.declaredName? h.code) hreturns
    (o + x) (o' + x)
  unfold docFindings
  dsimp only
  rw [List.map_append, List.map_append,
    reasons_seeFindings h.stream h.stream' hsame hsize hx htags,
    hsame.textBetween (Nat.le_of_lt hx), overrides_matches h hmatch]
  congr 1
  split
  · cases overrides ctx i with
    | none => rfl
    | some declared =>
      cases declared with
      | true => rfl
      | false => exact congrArg (_ :: ·) hfindings
  · exact hfindings

/-- **Layout does not change what is found about a function**, as long as no comment is put between a bare
return and its semicolon, or taken away from there. -/
theorem reasons_of_relaid (testClasses : List Text)
    (habove : SameAbove ctx.stream ctx'.stream i i')
    (hbare : SameBareReturns ctx.stream ctx'.stream i) :
    (findings testClasses ctx' i').map Finding.reason =
      (findings testClasses ctx i).map Finding.reason := by
  unfold findings
  dsimp only
  rw [hmatch.isClosure h.code, isTestMethod_matches h hmatch]
  split
  · rfl
  · cases habove with
    | none hend hend' =>
      rw [hend, hend']
      dsimp only
      split <;> rfl
    | other hend hend' hcomment hcomment' =>
      rw [hend, hend']
      dsimp only
      rw [if_pos hcomment, if_pos hcomment']
      rfl
    | @doc o o' x len hi hi' hdoc hend hsame =>
      subst hi hi'
      have hsize := TokenStream.lt_size_of_has hmatch.left
      have hx : x < len := Nat.lt_of_add_lt_add_left (lt_of_commentEnd? hdoc.closer hend)
      have hdoc' := hsame.docGroup (Nat.le_of_lt hx) hdoc
      have hend' := commentEnd?_same h.stream h.stream' hsame hsize hdoc hend
      rw [hend, hend']
      dsimp only
      rw [if_neg (not_isAt_comment hdoc.closer), if_neg (not_isAt_comment hdoc'.closer),
        hdoc.partner?.2, hdoc'.partner?.2, List.map_append, List.map_append]
      congr 1
      · have hline := hsame.line h.stream h.stream' (Nat.le_of_lt hx) (by omega)
        have hline' := hsame.line h.stream h.stream' (Nat.le_refl len) hsize
        have hiff : ctx'.stream.line (o' + x) + 1 = ctx'.stream.line (o' + len) ↔
            ctx.stream.line (o + x) + 1 = ctx.stream.line (o + len) := by omega
        simp only [hiff]
        split <;> rfl
      · exact reasons_docFindings h hmatch hsame hsize hx hdoc
          (returnAlike_relaid h hmatch hbare)

end Contexts

/-! ## Two versions of a function -/

/-- The streams have one code, and the same doc comment, which is opened at `o`, stands above the function
that is `len` tokens behind. -/
def isRelaidBelow (s s' : TokenStream) (o x len : Nat) : Bool :=
  s'.code == s.code &&
    (s.codeIndices.zip s'.codeIndices).all (fun p => TokenStream.readsAlike s s' p.1 p.2) &&
    s.isAt o (.opens .docComment) && s.partner? o == some (o + x) &&
    commentEnd? s (o + len) == some (o + x) && decide (SameTokens s s' o o len) &&
    s.has (o + len) Kind.isSignificant && s'.ordinal (o + len) == s.ordinal (o + len)

/-- Two sources for which the streams were compared are versions of one file, with the same comment
above functions that match. -/
theorem relaid_of_isRelaidBelow {source source' : Text} (hs : TokenStream.ofSource source = .ok s)
    (hs' : TokenStream.ofSource source' = .ok s') {o x len : Nat}
    (h : isRelaidBelow s s' o x len = true) (path : FilePath) :
    FileContext.Relaid ⟨source, s, .ofStreams [s], path⟩ ⟨source', s', .ofStreams [s'], path⟩ ∧
      Matches s s' (o + len) (o + len) ∧ SameAbove s s' (o + len) (o + len) := by
  simp only [isRelaidBelow, Bool.and_eq_true, beq_iff_eq, decide_eq_true_eq] at h
  obtain ⟨⟨⟨⟨⟨⟨⟨hcode, hnames⟩, hopener⟩, hpartner⟩, hend⟩, hsame⟩, hkeyword⟩, hordinal⟩ := h
  refine ⟨⟨hs, hs', hcode, TokenStream.sameNames_of_zip hnames, ⟨[], [], rfl, rfl⟩, rfl⟩,
    ⟨hkeyword, ?_, hordinal⟩, .of_partner? hs hopener hpartner hend hsame⟩
  rw [hsame.has (Nat.le_refl len), hkeyword]

/-- What was worked out for the streams of two sources holds of them. -/
theorem exists_of_sources (source source' : Text) (check : TokenStream → TokenStream → Bool)
    (h : ((TokenStream.ofSource source).bind fun s =>
      (TokenStream.ofSource source').map (check s)) = .ok true) :
    ∃ s s', TokenStream.ofSource source = .ok s ∧ TokenStream.ofSource source' = .ok s' ∧
      check s s' = true := by
  cases hs : TokenStream.ofSource source with
  | error e =>
    rw [hs] at h
    cases h
  | ok s =>
    rw [hs] at h
    obtain ⟨s', hs', hcheck⟩ := TokenStream.exists_of_map_ofSource h
    exact ⟨s, s', rfl, hs', hcheck⟩

/-- A function with a nested one, whose doc comment says that it returns nothing. -/
def voidFunction : Text :=
  ("<?php\n/** @return void */\n" ++
    "function f($x) \x7b $g = function () \x7b return; \x7d; if ($x) return; return 1; \x7d").toList

/-- The same code in another layout. -/
def voidFunctionRelaid : Text :=
  ("<?php\n/** @return void */\nfunction f(/* x */ $x) \x7b\n" ++
    "$g=function () \x7b return /* g */; \x7d; if ($x) return\n;return/* f */1;\x7d").toList

/-- The semicolon of a bare return may stand on a line of its own, and there may be comments in the header,
in nested functions and before a value. -/
theorem reasons_of_relaid_void :
    ∃ ctx ctx' : FileContext, TokenStream.ofSource voidFunction = .ok ctx.stream ∧
      TokenStream.ofSource voidFunctionRelaid = .ok ctx'.stream ∧
      ctx.Relaid ctx' ∧ Matches ctx.stream ctx'.stream 9 9 ∧
      SameAbove ctx.stream ctx'.stream 9 9 ∧ SameBareReturns ctx.stream ctx'.stream 9 ∧
      (findings [] ctx 9).map Finding.reason = ["InvalidReturnVoid"] ∧
      (findings [] ctx' 9).map Finding.reason = ["InvalidReturnVoid"] := by
  obtain ⟨s, s', hs, hs', hcheck⟩ := exists_of_sources voidFunction voidFunctionRelaid
    (fun s s' => isRelaidBelow s s' 1 6 8 &&
      (s.bodyCloser? 9).all (fun stop => (returnsFrom s stop 10).all fun r =>
        (s.codeIndices.zip s'.codeIndices).all fun p =>
          p.1 != r || isInterrupted s' p.2 == isInterrupted s r) &&
      (findings [] ⟨voidFunction, s, .ofStreams [s], ⟨[]⟩⟩ 9).map Finding.reason ==
        ["InvalidReturnVoid"]) (by decide +kernel)
  simp only [Bool.and_eq_true, beq_iff_eq] at hcheck
  obtain ⟨⟨hrelaid, hbare⟩, hreasons⟩ := hcheck
  obtain ⟨hctx, hmatch, habove⟩ := relaid_of_isRelaidBelow hs hs' hrelaid ⟨[]⟩
  have hbare := sameBareReturns_of_zip hbare
  exact ⟨⟨voidFunction, s, .ofStreams [s], ⟨[]⟩⟩, ⟨voidFunctionRelaid, s', .ofStreams [s'], ⟨[]⟩⟩, hs,
    hs', hctx, hmatch, habove, hbare, hreasons,
    (reasons_of_relaid hctx hmatch [] habove hbare).trans hreasons⟩

/-- A function that returns nothing, as its doc comment says. -/
def bareReturn : Text :=
  "<?php\n/** @return void */\nfunction f() \x7b return; \x7d".toList

/-- The same function, with a comment that says so again. -/
def bareReturnCommented : Text :=
  "<?php\n/** @return void */\nfunction f() \x7b return /* nothing */; \x7d".toList

/-- Of two functions with the same code and the same doc comment, the one with a comment before the
semicolon of its bare return is said to return a value. -/
theorem reasons_bareReturn_commented :
    ∃ ctx ctx' : FileContext, TokenStream.ofSource bareReturn = .ok ctx.stream ∧
      TokenStream.ofSource bareReturnCommented = .ok ctx'.stream ∧
      ctx.Relaid ctx' ∧ ctx.stream.isAt 9 (.keyword .kwFunction) = true ∧
      Matches ctx.stream ctx'.stream 9 9 ∧ SameAbove ctx.stream ctx'.stream 9 9 ∧
      (findings [] ctx 9).map Finding.reason = [] ∧
      (findings [] ctx' 9).map Finding.reason = ["InvalidReturnVoid"] := by
  obtain ⟨s, s', hs, hs', hcheck⟩ := exists_of_sources bareReturn bareReturnCommented
    (fun s s' => isRelaidBelow s s' 1 6 8 && s.isAt 9 (.keyword .kwFunction) &&
      (findings [] ⟨bareReturn, s, .ofStreams [s], ⟨[]⟩⟩ 9).map Finding.reason == [] &&
      (findings [] ⟨bareReturnCommented, s', .ofStreams [s'], ⟨[]⟩⟩ 9).map Finding.reason ==
        ["InvalidReturnVoid"]) (by decide +kernel)
  simp only [Bool.and_eq_true, beq_iff_eq] at hcheck
  obtain ⟨⟨⟨hrelaid, hfunction⟩, hreasons⟩, hreasons'⟩ := hcheck
  obtain ⟨hctx, hmatch, habove⟩ := relaid_of_isRelaidBelow hs hs' hrelaid ⟨[]⟩
  exact ⟨⟨bareReturn, s, .ofStreams [s], ⟨[]⟩⟩, ⟨bareReturnCommented, s', .ofStreams [s'], ⟨[]⟩⟩, hs,
    hs', hctx, hfunction, hmatch, habove, hreasons, hreasons'⟩

end FunctionComment

end PhpLint

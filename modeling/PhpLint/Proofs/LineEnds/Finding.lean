import PhpLint.Proofs.LineEnds.Declaration
import PhpLint.Sniff.ArrayTrailingComma
import PhpLint.Sniff.OperandOrder
import PhpLint.Sniff.StrictDeclaration

/-!
# Findings in mirrored streams

A check takes no notice of line ends when its findings at an image are the images of its findings, and
all of them stand at tokens that keep their line and column.  This module treats the three checks that
look at code alone.
-/

namespace PhpLint

open TokenStream (Mirrors)

/-- Tokens of this kind stand in the same line and column of both forms. -/
def Kind.keepsPlace (k : Kind) : Bool := k != .inlineHtml && k != .docSpace

/-- Only text outside of code and spaces of doc comments may be moved. -/
theorem TokenStream.has_keepsPlace {s : TokenStream} {i : Nat} {p : Kind → Bool}
    (hi : s.has i p = true) (hhtml : p .inlineHtml = false) (hspace : p .docSpace = false) :
    s.has i Kind.keepsPlace = true := by
  obtain ⟨k, hk, hp⟩ := (Option.any_eq_true _ _).1 hi
  rw [has, hk, Option.any_some, Kind.keepsPlace, Bool.and_eq_true, bne_iff_ne, bne_iff_ne]
  constructor
  · rintro rfl
    rw [hhtml] at hp
    cases hp
  · rintro rfl
    rw [hspace] at hp
    cases hp

/-- The contexts of the two forms of a file. -/
structure FileContext.Mirrors (ctx ctx' : FileContext) (φ : Nat → Nat) : Prop where
  stream : TokenStream.Mirrors ctx.stream ctx'.stream φ
  symbols : ctx'.symbols = ctx.symbols
  path : ctx'.path = ctx.path

namespace Finding

/-- A finding in the other stream. -/
def move (φ : Nat → Nat) (f : Finding) : Finding :=
  { f with index := φ f.index, labels := f.labels.map fun l => (φ l.1, l.2) }

/-- All that a finding points at keeps its place. -/
structure KeepsPlaces (s : TokenStream) (f : Finding) : Prop where
  index : s.has f.index Kind.keepsPlace = true
  labels : ∀ l ∈ f.labels, s.has l.1 Kind.keepsPlace = true

/-- A finding without labels keeps its places when the token that it points at does. -/
theorem KeepsPlaces.of_isAt {s : TokenStream} {f : Finding} {k : Kind}
    (hindex : s.isAt f.index k = true) (hk : k.keepsPlace = true) (hlabels : f.labels = []) :
    KeepsPlaces s f := by
  refine ⟨by rwa [TokenStream.has_of_isAt hindex], fun l hl => ?_⟩
  rw [hlabels] at hl
  cases hl

end Finding

namespace Sniff

/-- What a check finds does not depend on the form of the line ends. -/
structure Invariant (sniff : Sniff) : Prop where
  listens : .inlineHtml ∉ sniff.listensTo
  findings : ∀ {ctx ctx' : FileContext} {φ : Nat → Nat} {i : Nat}, ctx.Mirrors ctx' φ →
    ctx.stream.has i sniff.listensTo.contains = true →
      sniff.findings ctx' (φ i) = (sniff.findings ctx i).map (Finding.move φ)
  places : ∀ {ctx : FileContext} {i : Nat}, ctx.stream.has i sniff.listensTo.contains = true →
    ∀ f ∈ sniff.findings ctx i, f.KeepsPlaces ctx.stream

end Sniff

/-- A check that listens for some kinds is asked at one of them. -/
theorem TokenStream.exists_isAt_of_has_contains {s : TokenStream} {i : Nat} {ks : List Kind}
    (h : s.has i ks.contains = true) : ∃ k ∈ ks, s.isAt i k = true := by
  obtain ⟨k, hk, hmem⟩ := (Option.any_eq_true _ _).1 h
  exact ⟨k, List.contains_iff_mem.1 hmem, TokenStream.isAt_iff.2 hk⟩

/-- A check that listens for one kind is asked at tokens of that kind. -/
theorem TokenStream.isAt_of_has_contains {s : TokenStream} {i : Nat} {k : Kind}
    (h : s.has i [k].contains = true) : s.isAt i k = true := by
  obtain ⟨k', hmem, hat⟩ := exists_isAt_of_has_contains h
  rwa [List.mem_singleton.1 hmem] at hat

variable {s s' : TokenStream} {φ : Nat → Nat}

/-! ## Commas after the last element of an array -/

namespace ArrayTrailingComma

/-- An array starts with a bracket. -/
theorem exists_of_opener? {i opener : Nat} (h : opener? s i = some opener) :
    ∃ d, s.isAt opener (.opens d) = true := by
  unfold opener? at h
  by_cases hsquare : s.isAt i (.opens .square) = true
  · rw [if_pos hsquare] at h
    split at h
    · cases h
    · obtain rfl := Option.some.inj h
      exact ⟨.square, hsquare⟩
  · rw [if_neg hsquare] at h
    split at h
    · exact ⟨.round, (Option.filter_eq_some_iff.1 h).2⟩
    · cases h

/-- The bracket of an array stands at the image. -/
theorem opener?_image (h : Mirrors s s' φ) (i : Nat) :
    opener? s' (φ i) = (opener? s i).map φ := by
  unfold opener?
  rw [h.isAt_image, h.isAt_image]
  by_cases hsquare : s.isAt i (.opens .square) = true
  · rw [if_pos hsquare, if_pos hsquare,
      h.previousSignificant_image (Mirrors.not_openTag_of_isAt hsquare (by decide)), Option.any_map]
    simp only [h.has_image]
    split <;> rfl
  · rw [if_neg hsquare, if_neg hsquare]
    by_cases harray : s.isAt i (.keyword .kwArray) = true
    · rw [if_pos harray, if_pos harray,
        h.nextSignificant_image (Mirrors.not_closeTag_of_isAt harray (by decide)),
        Option.filter_map]
      simp only [Function.comp_def, h.isAt_image]
    · rw [if_neg harray, if_neg harray]
      rfl

/-- The comma behind the last element of the array literal that starts at an index. -/
def comma? (s : TokenStream) (i : Nat) : Option Nat := do
  let opener ← opener? s i
  let closer ← s.partner? opener
  let last ← s.previousSignificant closer
  if opener < last ∧ s.isAt last .comma then some last else none

/-- A comma behind the last element is what is found, and nothing else. -/
theorem findings_eq (ctx : FileContext) (i : Nat) :
    findings ctx i =
      match comma? ctx.stream i with
      | some comma =>
        [{ index := comma, reason := "Found", message := "Trailing array comma is forbidden" }]
      | none => [] := rfl

/-- The comma behind the last element stands at the image. -/
theorem comma?_image (h : Mirrors s s' φ) (i : Nat) : comma? s' (φ i) = (comma? s i).map φ := by
  unfold comma?
  rw [opener?_image h]
  cases hopener : opener? s i with
  | none => rfl
  | some opener =>
    obtain ⟨d, hat⟩ := exists_of_opener? hopener
    simp only [Option.map_some, Option.bind_eq_bind, Option.bind_some, h.partner?_image]
    cases hcloser : s.partner? opener with
    | none => rfl
    | some closer =>
      have hopen := Mirrors.not_openTag_of_isAt (Mirrors.isAt_closer hat hcloser) (fun h => by cases h)
      simp only [Option.map_some, Option.bind_some, h.previousSignificant_image hopen]
      cases s.previousSignificant closer with
      | none => rfl
      | some last =>
        simp only [Option.map_some, Option.bind_some, h.strictMono.lt_iff_lt, h.isAt_image]
        split <;> rfl

/-- The comma behind the last element is a comma. -/
theorem isAt_of_comma? {i comma : Nat} (h : comma? s i = some comma) :
    s.isAt comma .comma = true := by
  unfold comma? at h
  obtain ⟨opener, -, h⟩ := Option.bind_eq_some_iff.1 h
  obtain ⟨closer, -, h⟩ := Option.bind_eq_some_iff.1 h
  obtain ⟨last, -, h⟩ := Option.bind_eq_some_iff.1 h
  obtain ⟨⟨-, hcomma⟩, heq⟩ := Option.ite_none_right_eq_some.1 h
  obtain rfl := Option.some.inj heq
  exact hcomma

/-- **Line ends do not matter to the check of commas.**. -/
theorem invariant_sniff (severity : Severity) : (sniff severity).Invariant where
  listens := by simp [sniff]
  findings := by
    intro ctx ctx' φ i hctx _
    show findings ctx' (φ i) = (findings ctx i).map (Finding.move φ)
    rw [findings_eq, findings_eq, comma?_image hctx.stream]
    cases comma? ctx.stream i <;> rfl
  places := by
    intro ctx i _ f hf
    replace hf : f ∈ findings ctx i := hf
    rw [findings_eq] at hf
    cases hcomma : comma? ctx.stream i with
    | none =>
      rw [hcomma] at hf
      cases hf
    | some comma =>
      rw [hcomma] at hf
      obtain rfl := List.mem_singleton.1 hf
      exact .of_isAt (isAt_of_comma? hcomma) rfl rfl

end ArrayTrailingComma

/-! ## The order of operands in comparisons -/

namespace OperandOrder

/-- A token binds at the image as at the index. -/
theorem binds_image (h : Mirrors s s' φ) (i : Nat) : binds s' (φ i) = binds s i := by
  rw [binds, binds, h.isAt_image, h.isAt_image, h.isAt_image]
  by_cases hi : s.isAt i .operator = true
  · rw [h.content_image (TokenStream.has_of_isAt hi _)]
  · rw [eq_false_of_ne_true hi, Bool.false_and, Bool.false_and]

/-- A sign stands at the image when one stands at the index. -/
theorem isSign_image (h : Mirrors s s' φ) (i : Nat) : isSign s' (φ i) = isSign s i := by
  rw [isSign, isSign, h.isAt_image]
  by_cases hi : s.isAt i .operator = true
  · rw [h.content_image (TokenStream.has_of_isAt hi _)]
  · rw [eq_false_of_ne_true hi, Bool.false_and, Bool.false_and]

theorem isAt_of_isSign {i : Nat} (h : isSign s i = true) : s.isAt i .operator = true := by
  rw [isSign, Bool.and_eq_true] at h
  exact h.1

/-- The operand on the left is a literal in both forms or in neither. -/
theorem leftIsLiteral_image (h : Mirrors s s' φ) {i : Nat} (hi : s.has i (· != .openTag) = true) :
    leftIsLiteral s' (φ i) = leftIsLiteral s i := by
  unfold leftIsLiteral
  rw [h.previousSignificant_image hi]
  cases s.previousSignificant i with
  | none => rfl
  | some literal =>
    dsimp only [Option.map_some]
    rw [h.has_image]
    by_cases hliteral : s.has literal isLiteral = true
    · rw [h.previousSignificant_image (Mirrors.not_openTag_of_has hliteral rfl)]
      cases s.previousSignificant literal with
      | none => rfl
      | some before =>
        dsimp only [Option.map_some]
        rw [isSign_image h, h.has_image, binds_image h]
        by_cases hsign : isSign s before = true
        · rw [h.previousSignificant_image
            (Mirrors.not_openTag_of_isAt (isAt_of_isSign hsign) (by decide))]
          cases s.previousSignificant before with
          | none => rfl
          | some further =>
            dsimp only [Option.map_some]
            rw [h.has_image, binds_image h]
        · rw [eq_false_of_ne_true hsign, Bool.false_and, if_neg Bool.false_ne_true,
            if_neg Bool.false_ne_true]
    · rw [eq_false_of_ne_true hliteral]
      rfl

/-- The token that would be the literal behind an operator. -/
def literalAfter? (s : TokenStream) (operator : Nat) : Option Nat :=
  (s.nextSignificant operator).bind fun next =>
    if isSign s next then (s.nextSignificant next).filter (s.has · isNumber) else some next

/-- The operand on the right is a literal when the token behind the operator is one and nothing binds
behind it. -/
theorem rightIsLiteral_eq (s : TokenStream) (operator : Nat) :
    rightIsLiteral s operator =
      match literalAfter? s operator with
      | none => false
      | some literal =>
        s.has literal isLiteral &&
          !(s.nextSignificant literal).any fun after => binds s after || s.isAt after (.opens .square) :=
  rfl

/-- The literal behind an operator stands at the image. -/
theorem literalAfter?_image (h : Mirrors s s' φ) {i : Nat} (hi : s.isAt i .closeTag = false) :
    literalAfter? s' (φ i) = (literalAfter? s i).map φ := by
  unfold literalAfter?
  rw [h.nextSignificant_image hi]
  cases s.nextSignificant i with
  | none => rfl
  | some next =>
    simp only [Option.map_some, Option.bind_some, isSign_image h]
    by_cases hsign : isSign s next = true
    · rw [if_pos hsign, if_pos hsign, h.nextSignificant_image
        (Mirrors.not_closeTag_of_isAt (isAt_of_isSign hsign) (by decide)), Option.filter_map]
      simp only [Function.comp_def, h.has_image]
    · rw [if_neg hsign, if_neg hsign]
      rfl

/-- The operand on the right is a literal in both forms or in neither. -/
theorem rightIsLiteral_image (h : Mirrors s s' φ) {i : Nat} (hi : s.isAt i .closeTag = false) :
    rightIsLiteral s' (φ i) = rightIsLiteral s i := by
  rw [rightIsLiteral_eq, rightIsLiteral_eq, literalAfter?_image h hi]
  cases literalAfter? s i with
  | none => rfl
  | some literal =>
    dsimp only [Option.map_some]
    rw [h.has_image]
    by_cases hliteral : s.has literal isLiteral = true
    · rw [h.nextSignificant_image (Mirrors.not_closeTag_of_has hliteral rfl), Option.any_map]
      simp only [binds_image h, h.isAt_image]
    · rw [eq_false_of_ne_true hliteral, Bool.false_and, Bool.false_and]

/-- The check is asked at comparisons. -/
theorem exists_of_listens {severity : Severity} {style : Style} {i : Nat}
    (hi : s.has i (sniff severity style).listensTo.contains = true) :
    ∃ c, s.isAt i (.comparison c) = true := by
  obtain ⟨k, hk, hat⟩ := TokenStream.exists_isAt_of_has_contains hi
  obtain ⟨c, -, rfl⟩ := List.mem_map.1 hk
  exact ⟨c, hat⟩

/-- The verdict on a comparison is moved. -/
theorem findings_image {ctx ctx' : FileContext} (hctx : ctx.Mirrors ctx' φ) (style : Style) {i : Nat}
    {c : Comparison} (hi : ctx.stream.isAt i (.comparison c) = true) :
    findings style ctx' (φ i) = (findings style ctx i).map (Finding.move φ) := by
  have h := hctx.stream
  have hleft := leftIsLiteral_image h (Mirrors.not_openTag_of_isAt hi (fun h => by cases h))
  have hright := rightIsLiteral_image h (Mirrors.not_closeTag_of_isAt hi (fun h => by cases h))
  have htext := h.content_image (TokenStream.has_of_isAt hi _)
  unfold findings
  dsimp only
  rw [hleft, hright, htext]
  cases style with
  | require =>
    dsimp only
    split <;> rfl
  | disallow =>
    dsimp only
    split <;> rfl

/-- The verdict on a comparison points at it and has no labels. -/
theorem index_of_mem_findings {style : Style} {ctx : FileContext} {i : Nat} {f : Finding}
    (hf : f ∈ findings style ctx i) : f.index = i ∧ f.labels = [] := by
  cases style with
  | require =>
    obtain ⟨-, hf⟩ := List.mem_ite_nil_right.1 hf
    obtain rfl := List.mem_singleton.1 hf
    exact ⟨rfl, rfl⟩
  | disallow =>
    obtain ⟨-, hf⟩ := List.mem_ite_nil_right.1 hf
    obtain rfl := List.mem_singleton.1 hf
    exact ⟨rfl, rfl⟩

/-- **Line ends do not matter to the check of operands.**. -/
theorem invariant_sniff (severity : Severity) (style : Style) : (sniff severity style).Invariant where
  listens := by simp [sniff]
  findings := by
    intro ctx ctx' φ i hctx hi
    obtain ⟨c, hat⟩ := exists_of_listens hi
    exact findings_image hctx style hat
  places := by
    intro ctx i hi f hf
    obtain ⟨c, hat⟩ := exists_of_listens hi
    obtain ⟨hindex, hlabels⟩ := index_of_mem_findings hf
    exact .of_isAt (by rwa [hindex]) rfl hlabels

end OperandOrder

/-! ## The declaration of strict types -/

namespace StrictDeclaration

/-- Tokens of one text in one line and column. -/
structure SamePiece (t t' : Token) : Prop where
  line : t'.line = t.line
  column : t'.column = t.column
  content : t'.content = t.content

/-- Tokens of one text in one column end in one column. -/
theorem SamePiece.endColumn {t t' : Token} (h : SamePiece t t') : t'.endColumn = t.endColumn := by
  rw [Token.endColumn, Token.endColumn, Token.length, Token.length, h.column, h.content]

/-- A token of a kind that never breaks. -/
theorem samePiece_of_token? (h : Mirrors s s' φ) {i : Nat} {t : Token} (ht : s.token? i = some t)
    (hplain : t.kind.mayBreak = false) : ∃ t', s'.token? (φ i) = some t' ∧ SamePiece t t' := by
  obtain ⟨t', ht', halike⟩ := h.token i t ht
  have hhtml : t.kind ≠ .inlineHtml := fun hkind => by simp [hkind, Kind.mayBreak] at hplain
  have hspace : t.kind ≠ .docSpace := fun hkind => by simp [hkind, Kind.mayBreak] at hplain
  exact ⟨t', ht', halike.line hhtml, halike.column hhtml hspace, halike.plain hplain⟩

/-- No kind of a declaration's parts breaks. -/
theorem mayBreak_of_mem_shape : ∀ k ∈ shape.map Prod.fst, k.mayBreak = false := by
  decide

/-- The parts of a declaration stand in the same lines and columns. -/
theorem parts?_image (h : Mirrors s s' φ) {kinds : List Kind}
    (hkinds : ∀ k ∈ kinds, k.mayBreak = false) :
    ∀ i, Option.Rel (List.Forall₂ SamePiece) (parts? s kinds i) (parts? s' kinds (φ i)) := by
  induction kinds with
  | nil => exact fun _ => .some .nil
  | cons k kinds ih =>
    intro i
    have hplain := hkinds k (List.mem_cons_self ..)
    have hrest := ih fun k' hk' => hkinds k' (List.mem_cons_of_mem _ hk')
    -- No part is text outside of code, so the search for it may pass closing tags.
    have hother : (Kind.inlineHtml == k) = true → (Kind.closeTag == k) = true := by
      intro hhtml
      rw [← eq_of_beq hhtml] at hplain
      cases hplain
    unfold parts?
    rw [h.findNext_image (p := (· == k)) hother]
    cases hfound : s.findNext (· == k) i with
    | none => exact .none
    | some j =>
      obtain ⟨t, ht, hkind⟩ := Option.map_eq_some_iff.1
        (TokenStream.isAt_iff.1 (Mirrors.isAt_of_findNext hfound))
      obtain ⟨t', ht', hsame⟩ := samePiece_of_token? h ht (by rw [hkind, hplain])
      simp only [Option.map_some, Option.bind_eq_bind, Option.bind_some, ht, ht']
      have hparts := hrest j
      generalize parts? s kinds j = parts at hparts ⊢
      generalize parts? s' kinds (φ j) = parts' at hparts ⊢
      cases hparts with
      | none => exact .none
      | some hparts => exact .some (.cons hsame hparts)

/-- Such tokens follow each other without a gap in both forms or in neither. -/
theorem adjacent_of_forall₂ {ts ts' : List Token} (h : List.Forall₂ SamePiece ts ts')
    (line : Nat) : ∀ column, adjacent line column ts' = adjacent line column ts := by
  induction h with
  | nil => exact fun _ => rfl
  | cons hsame _ ih =>
    intro column
    rw [adjacent, adjacent, hsame.line, hsame.column, hsame.endColumn, ih]

/-- Such tokens have the texts of a shape in both forms or in neither. -/
theorem all_zip_of_forall₂ {ts ts' : List Token} (h : List.Forall₂ SamePiece ts ts') :
    ∀ shape : List (Kind × Option Text),
      (ts'.zip shape).all (fun (t, _, text) => text.all (t.content == ·)) =
        (ts.zip shape).all fun (t, _, text) => text.all (t.content == ·) := by
  induction h with
  | nil => exact fun _ => rfl
  | cons hsame _ ih =>
    intro shape
    cases shape with
    | nil => rfl
    | cons part shape =>
      rw [List.zip_cons_cons, List.zip_cons_cons, List.all_cons, List.all_cons, ih]
      dsimp only
      rw [hsame.content]

/-- A declaration has its form at the image when it has it at the index. -/
theorem wellFormed_image (h : Mirrors s s' φ) (i : Nat) {t t' : Token} (hkeyword : SamePiece t t') :
    wellFormed s' (φ i) t' = wellFormed s i t := by
  unfold wellFormed
  have hparts := parts?_image h mayBreak_of_mem_shape i
  generalize parts? s (shape.map Prod.fst) i = parts at hparts ⊢
  generalize parts? s' (shape.map Prod.fst) (φ i) = parts' at hparts ⊢
  cases hparts with
  | none => rfl
  | some hparts =>
    dsimp only
    rw [hkeyword.line, hkeyword.endColumn, adjacent_of_forall₂ hparts, all_zip_of_forall₂ hparts]

/-- A file fails for the same reason in both forms. -/
theorem failure?_image (h : Mirrors s s' φ) {start : Nat} (hstart : s.isAt start .openTag = true) :
    failure? s' (φ start) = failure? s start := by
  have hline : s'.line (φ start) = s.line start :=
    h.line_image (by rw [TokenStream.isAt, TokenStream.isAt_iff.1 hstart]; rfl)
  unfold failure?
  rw [h.findNext_image (p := (· == .keyword .kwDeclare)) (by decide), hline]
  cases hfound : s.findNext (· == .keyword .kwDeclare) start with
  | none => rfl
  | some index =>
    obtain ⟨t, ht, hkind⟩ := Option.map_eq_some_iff.1
      (TokenStream.isAt_iff.1 (Mirrors.isAt_of_findNext hfound))
    obtain ⟨t', ht', hsame⟩ := samePiece_of_token? h ht (by rw [hkind]; rfl)
    simp only [Option.map_some, ht, ht', hsame.line, hsame.column, wellFormed_image h index hsame]

/-- What is found at an open tag is moved. -/
theorem findings_image {ctx ctx' : FileContext} (hctx : ctx.Mirrors ctx' φ) {i : Nat}
    (hi : ctx.stream.isAt i .openTag = true) :
    findings ctx' (φ i) = (findings ctx i).map (Finding.move φ) := by
  have h := hctx.stream
  have hfirst : ctx'.stream.findBefore (· == .openTag) (φ i) = _ :=
    h.findBefore_image (by decide) (fun hhtml => by cases hhtml)
  unfold findings
  rw [hfirst, Option.isSome_map, failure?_image h hi]
  by_cases hsome : (ctx.stream.findBefore (· == .openTag) i).isSome = true
  · rw [if_pos hsome, if_pos hsome]
    rfl
  · rw [if_neg hsome, if_neg hsome]
    cases failure? ctx.stream i <;> rfl

/-- What is found points at the open tag and has no labels. -/
theorem index_of_mem_findings {ctx : FileContext} {i : Nat} {f : Finding}
    (hf : f ∈ findings ctx i) : f.index = i ∧ f.labels = [] := by
  unfold findings at hf
  split at hf
  · cases hf
  · split at hf
    · obtain rfl := List.mem_singleton.1 hf
      exact ⟨rfl, rfl⟩
    · cases hf

/-- **Line ends do not matter to the check for strict types.**. -/
theorem invariant_sniff (severity : Severity) : (sniff severity).Invariant where
  listens := by simp [sniff]
  findings := by
    intro ctx ctx' φ i hctx hi
    exact findings_image hctx (TokenStream.isAt_of_has_contains hi)
  places := by
    intro ctx i hi f hf
    obtain ⟨hindex, hlabels⟩ := index_of_mem_findings hf
    exact .of_isAt (k := .openTag) (by rw [hindex, TokenStream.isAt_of_has_contains hi]) rfl hlabels

end StrictDeclaration

end PhpLint

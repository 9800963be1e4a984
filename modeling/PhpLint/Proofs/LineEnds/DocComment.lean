import PhpLint.Proofs.LineEnds.Finding
import PhpLint.Sniff.DocCommentSpacing

/-!
# Blank lines in doc comments of mirrored streams

The blank lines in a doc comment are counted by the lines of its content, and these are the same in
both forms: the last content before an image is the image of the last content before the index.
-/

namespace PhpLint

open TokenStream (Mirrors)

variable {s s' : TokenStream} {φ : Nat → Nat}

namespace DocCommentSpacing

/-- A verdict on a number of lines is given at the image. -/
theorem expect_move (index : Nat) (reason place : String) (expected found : Nat) :
    expect (φ index) reason place expected found =
      (expect index reason place expected found).map (Finding.move φ) := by
  unfold expect
  split <;> rfl

/-- The last line of content before the image is the one before the index. -/
theorem contentLineBefore?_image (h : Mirrors s s' φ) (opener i : Nat) :
    contentLineBefore? s' (φ opener) (φ i) = contentLineBefore? s opener i := by
  unfold contentLineBefore?
  rw [h.findBefore_image (by decide) (fun hhtml => by cases hhtml), Option.filter_map,
    Option.map_map]
  simp only [Function.comp_def, h.strictMono.lt_iff_lt]
  cases hfound : s.findBefore Kind.isDocContent i with
  | none => rfl
  | some j =>
    have hline := h.line_image_of_has (TokenStream.has_of_findBefore hfound) rfl
    simp only [Option.filter_some]
    split
    · exact congrArg some hline
    · rfl

section Tags

variable (h : Mirrors s s' φ) (spacing : Spacing) (opener : Nat)

include h

/-- The verdict on the lines behind the description is moved. -/
theorem afterDescription_image {first : Nat} (hfirst : s.has first Kind.isDocContent = true)
    {tags : List Nat} (htags : ∀ tag ∈ tags, s.isAt tag .docTag = true) :
    afterDescription s' spacing (φ opener) (φ first) (tags.map φ) =
      (afterDescription s spacing opener first tags).map (Finding.move φ) := by
  cases tags with
  | nil => rfl
  | cons tag tags =>
    have htag := h.line_image_of_isAt (htags tag (List.mem_cons_self ..)) (by decide)
    rw [List.map_cons, afterDescription, afterDescription, contentLineBefore?_image h, htag,
      h.line_image_of_has hfirst rfl]
    simp only [h.strictMono.lt_iff_lt]
    split
    · exact expect_move ..
    · rfl

/-- The verdict on the lines between two tags is moved. -/
theorem betweenTags_image {tag next : Nat} (htag : s.isAt tag .docTag = true)
    (hnext : s.isAt next .docTag = true) :
    betweenTags s' spacing (φ opener) (φ tag) (φ next) =
      (betweenTags s spacing opener tag next).map (Finding.move φ) := by
  unfold betweenTags
  rw [contentLineBefore?_image h, h.line_image_of_isAt htag (by decide),
    h.line_image_of_isAt hnext (by decide), h.content_image (TokenStream.has_of_isAt htag _),
    h.content_image (TokenStream.has_of_isAt hnext _)]
  dsimp only
  split <;> exact expect_move ..

/-- The verdicts on the lines between all tags are moved. -/
theorem betweenAll_image {tags : List Nat} (htags : ∀ tag ∈ tags, s.isAt tag .docTag = true) :
    betweenAll s' spacing (φ opener) (tags.map φ) =
      (betweenAll s spacing opener tags).map (Finding.move φ) := by
  induction tags with
  | nil => rfl
  | cons tag tags ih =>
    cases tags with
    | nil => rfl
    | cons next tags =>
      have hrest := ih fun other hother => htags other (List.mem_cons_of_mem _ hother)
      rw [List.map_cons, List.map_cons, betweenAll, betweenAll, List.map_append,
        betweenTags_image h spacing opener (htags tag (by simp)) (htags next (by simp))]
      exact congrArg _ hrest

/-- The verdict on the lines before the end is moved. -/
theorem afterLast_image {closer : Nat} (hcloser : s.isAt closer (.closes .docComment) = true) :
    afterLast s' spacing (φ opener) (φ closer) =
      (afterLast s spacing opener closer).map (Finding.move φ) := by
  unfold afterLast
  rw [← h.image_succ (Mirrors.not_closeTag_of_isAt hcloser (by decide)), contentLineBefore?_image h,
    h.line_image_of_isAt hcloser (by decide)]
  cases contentLineBefore? s opener (closer + 1) with
  | none => rfl
  | some last => exact expect_move ..

end Tags

/-- What is found in a doc comment is moved. -/
theorem findings_image {ctx ctx' : FileContext} (hctx : ctx.Mirrors ctx' φ) (spacing : Spacing)
    {opener : Nat} (hopener : ctx.stream.isAt opener (.opens .docComment) = true) :
    findings spacing ctx' (φ opener) = (findings spacing ctx opener).map (Finding.move φ) := by
  have h := hctx.stream
  unfold findings
  dsimp only
  rw [h.partner?_image]
  cases hpartner : ctx.stream.partner? opener with
  | none => rfl
  | some closer =>
    have hcloser := Mirrors.isAt_closer hopener hpartner
    dsimp only [Option.map_some]
    rw [h.line_image_of_isAt hopener (by decide), h.line_image_of_isAt hcloser (by decide),
      h.findNextBefore_image (by decide)]
    by_cases hline : ctx.stream.line opener = ctx.stream.line closer
    · rw [if_pos hline, if_pos hline]
      rfl
    · rw [if_neg hline, if_neg hline]
      cases hfound : ctx.stream.findNextBefore Kind.isDocContent opener closer with
      | none => rfl
      | some first =>
        have hfirst := TokenStream.has_of_findNext (Option.filter_eq_some_iff.1 hfound).1
        have htags := ctx.stream.isAt_docTags opener
        dsimp only [Option.map_some]
        rw [h.docTags_image, h.line_image_of_has hfirst rfl, expect_move,
          afterDescription_image h spacing opener hfirst htags, betweenAll_image h spacing opener htags,
          afterLast_image h spacing opener hcloser, List.map_append, List.map_append, List.map_append]

/-! ## Places -/

/-- A verdict points at a place that is kept, if the token there keeps its own. -/
theorem keepsPlaces_expect {index expected found : Nat} {reason place : String} {k : Kind}
    (hindex : s.isAt index k = true) (hk : k.keepsPlace = true) :
    ∀ f ∈ expect index reason place expected found, f.KeepsPlaces s := by
  intro f hf
  unfold expect at hf
  split at hf
  · cases hf
  · obtain rfl := List.mem_singleton.1 hf
    exact .of_isAt hindex hk rfl

/-- The verdicts between tags point at tags. -/
theorem keepsPlaces_betweenAll {spacing : Spacing} {opener : Nat} {tags : List Nat}
    (htags : ∀ tag ∈ tags, s.isAt tag .docTag = true) :
    ∀ f ∈ betweenAll s spacing opener tags, f.KeepsPlaces s := by
  induction tags with
  | nil => exact fun _ hf => by cases hf
  | cons tag tags ih =>
    cases tags with
    | nil => exact fun _ hf => by cases hf
    | cons next tags =>
      intro f hf
      rw [betweenAll, List.mem_append] at hf
      rcases hf with hf | hf
      · unfold betweenTags at hf
        dsimp only at hf
        split at hf
        · exact keepsPlaces_expect (htags next (by simp)) rfl f hf
        · exact keepsPlaces_expect (htags next (by simp)) rfl f hf
      · exact ih (fun other hother => htags other (List.mem_cons_of_mem _ hother)) f hf

/-- All verdicts point at tags or at the ends of the comment. -/
theorem keepsPlaces_findings {spacing : Spacing} {ctx : FileContext} {opener : Nat}
    (hopener : ctx.stream.isAt opener (.opens .docComment) = true) :
    ∀ f ∈ findings spacing ctx opener, f.KeepsPlaces ctx.stream := by
  intro f hf
  have htags := ctx.stream.isAt_docTags opener
  unfold findings at hf
  dsimp only at hf
  cases hpartner : ctx.stream.partner? opener with
  | none =>
    rw [hpartner] at hf
    cases hf
  | some closer =>
    have hcloser := Mirrors.isAt_closer hopener hpartner
    simp only [hpartner] at hf
    split at hf
    · cases hf
    · split at hf
      · cases hf
      · simp only [List.mem_append] at hf
        rcases hf with ((hf | hf) | hf) | hf
        · exact keepsPlaces_expect hopener rfl f hf
        · unfold afterDescription at hf
          split at hf
          · cases hf
          · next tag tags hsplit =>
            obtain ⟨-, hf⟩ := List.mem_ite_nil_right.1 hf
            exact keepsPlaces_expect (htags tag (by simp [hsplit])) rfl f hf
        · exact keepsPlaces_betweenAll htags f hf
        · unfold afterLast at hf
          split at hf
          · exact keepsPlaces_expect hcloser rfl f hf
          · cases hf

/-- **Line ends do not matter to the check of blank lines in doc comments.**. -/
theorem invariant_sniff (severity : Severity) (spacing : Spacing) :
    (sniff severity spacing).Invariant where
  listens := by simp [sniff]
  findings := by
    intro ctx ctx' φ i hctx hi
    exact findings_image hctx spacing (TokenStream.isAt_of_has_contains hi)
  places := by
    intro ctx i hi
    exact keepsPlaces_findings (TokenStream.isAt_of_has_contains hi)

end DocCommentSpacing

end PhpLint

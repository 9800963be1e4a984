import PhpLint.Proofs.LineEnds.Stream
import PhpLint.Symbol.NameScope

/-!
# Names and bodies in mirrored streams

Declarations have the same names in both streams, and the braces around a body are the images of the
braces around it.  A name that is read from an index on is the same, and it ends at the image.
-/

namespace PhpLint.TokenStream.Mirrors

variable {s s' : TokenStream} {φ : Nat → Nat} {i j : Nat}

/-- What is no closing tag, by its kind. -/
theorem not_closeTag_of_isAt {k : Kind} (hi : s.isAt i k = true) (hk : k ≠ .closeTag) :
    s.isAt i .closeTag = false := by
  rw [isAt, isAt_iff.1 hi]
  simpa using hk

theorem not_openTag_of_isAt {k : Kind} (hi : s.isAt i k = true) (hk : k ≠ .openTag) :
    s.has i (· != .openTag) = true := by
  rw [has_of_isAt hi]
  simpa using hk

/-- What is no closing tag, by a class of kinds. -/
theorem not_closeTag_of_has {p : Kind → Bool} (hi : s.has i p = true) (hp : p .closeTag = false) :
    s.isAt i .closeTag = false := by
  by_contra hclose
  rw [has_of_isAt (eq_true_of_ne_false hclose), hp] at hi
  cases hi

/-- What is no open tag, by a class of kinds. -/
theorem not_openTag_of_has {p : Kind → Bool} (hi : s.has i p = true) (hp : p .openTag = false) :
    s.has i (· != .openTag) = true := by
  obtain ⟨k, hk, hpk⟩ := (Option.any_eq_true _ _).1 hi
  refine not_openTag_of_isAt (isAt_iff.2 hk) ?_
  rintro rfl
  rw [hp] at hpk
  cases hpk

/-- A closing tag is no word. -/
theorem not_closeTag_of_word (h : Mirrors s s' φ) (hi : Text.isNoWord (s.content i) = false) :
    s.isAt i .closeTag = false := by
  by_contra hclose
  obtain ⟨t, ht, hkind⟩ := exists_of_isAt (eq_true_of_ne_false hclose)
  obtain ⟨t', -, halike⟩ := h.token i t ht
  rw [content_of_token? ht, halike.suits.close hkind] at hi
  cases hi

/-! ## Declarations -/

/-- A declaration has the same name. -/
theorem declaredName?_image (h : Mirrors s s' φ) (hi : s.isAt i .closeTag = false) :
    s'.declaredName? (φ i) = s.declaredName? i := by
  have hname (name : Nat) :
      (if s'.isAt (φ name) .identifier then some (s'.content (φ name)) else none) =
        if s.isAt name .identifier then some (s.content name) else none := by
    rw [h.isAt_image]
    by_cases hidentifier : s.isAt name .identifier = true
    · rw [if_pos hidentifier, if_pos hidentifier, h.content_image (has_of_isAt hidentifier _)]
    · rw [if_neg hidentifier, if_neg hidentifier]
  unfold declaredName?
  rw [h.nextSignificant_image hi]
  cases hnext : s.nextSignificant i with
  | none => rfl
  | some next =>
    have hinside := h.inside_of_nextSignificant hi hnext
    have hreference : s'.content (φ next) = ['&'] ↔ _ := h.content_image_eq_iff hinside rfl
    simp only [Option.map_some, Option.bind_eq_bind, Option.bind_some, hreference]
    by_cases hsign : s.content next = ['&']
    · have hclose := h.not_closeTag_of_word (i := next) (by rw [hsign]; rfl)
      rw [if_pos hsign, if_pos hsign, h.nextSignificant_image hclose]
      cases s.nextSignificant next with
      | none => rfl
      | some name => exact hname name
    · rw [if_neg hsign, if_neg hsign]
      exact hname next

/-- A closure stands at the image when one stands at the index. -/
theorem isClosure_image (h : Mirrors s s' φ) (i : Nat) : s'.isClosure (φ i) = s.isClosure i := by
  rw [isClosure, isClosure, h.isAt_image]
  by_cases hi : s.isAt i (.keyword .kwFunction) = true
  · rw [h.declaredName?_image (not_closeTag_of_isAt hi (by decide))]
  · rw [eq_false_of_ne_true hi, Bool.false_and, Bool.false_and]

/-- An anonymous class stands at the image when one stands at the index. -/
theorem isAnonymousClass_image (h : Mirrors s s' φ) (i : Nat) :
    s'.isAnonymousClass (φ i) = s.isAnonymousClass i := by
  rw [isAnonymousClass, isAnonymousClass, h.isAt_image]
  by_cases hi : s.isAt i (.keyword .kwClass) = true
  · rw [h.previousSignificant_image (not_openTag_of_isAt hi (by decide)), Option.any_map]
    simp only [h.isAt_image]
  · rw [eq_false_of_ne_true hi, Bool.false_and, Bool.false_and]

/-- A type is declared by a token that is no tag. -/
theorem exists_of_isTypeDeclaration (hi : s.isTypeDeclaration i = true) :
    ∃ k, s.isAt i k = true ∧ k ≠ .openTag ∧ k ≠ .closeTag := by
  rw [isTypeDeclaration, Bool.and_eq_true, Bool.and_eq_true] at hi
  obtain ⟨k, hk, hkeyword⟩ := (Option.any_eq_true _ _).1 hi.1.1
  refine ⟨k, isAt_iff.2 hk, ?_, ?_⟩
  · rintro rfl
    cases hkeyword
  · rintro rfl
    cases hkeyword

/-- An anonymous class is declared by a token that is no tag. -/
theorem exists_of_isAnonymousClass (hi : s.isAnonymousClass i = true) :
    ∃ k, s.isAt i k = true ∧ k ≠ .openTag ∧ k ≠ .closeTag := by
  rw [isAnonymousClass, Bool.and_eq_true] at hi
  exact ⟨_, hi.1, by decide, by decide⟩

/-- A type is declared at the image when one is declared at the index. -/
theorem isTypeDeclaration_image (h : Mirrors s s' φ) (i : Nat) :
    s'.isTypeDeclaration (φ i) = s.isTypeDeclaration i := by
  rw [isTypeDeclaration, isTypeDeclaration, h.has_image]
  by_cases hi : s.has i Kind.isTypeKeyword = true
  · obtain ⟨k, hk, hkeyword⟩ := (Option.any_eq_true _ _).1 hi
    have hat := isAt_iff.2 hk
    have hclose : k ≠ .closeTag := fun heq => by simp [heq, Kind.isTypeKeyword] at hkeyword
    have hopen : k ≠ .openTag := fun heq => by simp [heq, Kind.isTypeKeyword] at hkeyword
    rw [h.previousSignificant_image (not_openTag_of_isAt hat hopen), Option.any_map,
      h.declaredName?_image (not_closeTag_of_isAt hat hclose)]
    simp only [h.isAt_image]
  · rw [eq_false_of_ne_true hi, Bool.false_and, Bool.false_and, Bool.false_and, Bool.false_and]

/-! ## Bodies -/

/-- The partner of an opener closes the same sort. -/
theorem isAt_closer {d : Delimiter} (hi : s.isAt i (.opens d) = true) (hj : s.partner? i = some j) :
    s.isAt j (.closes d) = true := by
  obtain ⟨-, e, hopener, hcloser⟩ := kind?_of_mem_pairs (mem_pairs_of_lt hj (lt_of_partner? hi hj))
  rw [isAt_iff.1 hi] at hopener
  cases hopener
  exact isAt_iff.2 hcloser

theorem isAt_of_findNext {k : Kind} (hj : s.findNext (· == k) i = some j) : s.isAt j k = true := by
  obtain ⟨-, hhas, -⟩ := findNext_eq_some_iff.1 hj
  simpa [has, isAt, Option.any_eq_true] using hhas

/-- The search for a body starts at the image. -/
theorem bodySearchStart?_image (h : Mirrors s s' φ) (hi : s.isAt i .closeTag = false) :
    s'.bodySearchStart? (φ i) = (s.bodySearchStart? i).map φ := by
  rw [bodySearchStart?, bodySearchStart?, h.has_image]
  by_cases hfunction : s.has i isFunctionKeyword = true
  · rw [if_pos hfunction, if_pos hfunction, ← h.image_succ hi,
      h.findNext_image (p := (· == .opens .round)) (by decide)]
    cases hopener : s.findNext (· == .opens .round) (i + 1) with
    | none => rfl
    | some opener =>
      have hat := isAt_of_findNext hopener
      simp only [Option.map_some, Option.bind_eq_bind, Option.bind_some, h.partner?_image]
      cases hcloser : s.partner? opener with
      | none => rfl
      | some closer =>
        have hclose := not_closeTag_of_isAt (isAt_closer hat hcloser) (by decide)
        simp [h.image_succ hclose]
  · rw [if_neg hfunction, if_neg hfunction, Option.map_some, h.image_succ hi]

/-- A body opens at the image. -/
theorem bodyOpener?_image (h : Mirrors s s' φ) (hi : s.isAt i .closeTag = false) :
    s'.bodyOpener? (φ i) = (s.bodyOpener? i).map φ := by
  unfold bodyOpener?
  rw [h.bodySearchStart?_image hi]
  cases s.bodySearchStart? i with
  | none => rfl
  | some start =>
    simp only [Option.map_some, Option.bind_eq_bind, Option.bind_some]
    rw [h.findNext_image (by decide)]
    cases s.findNext (fun k => k == .opens .curly || k == .semicolon) start with
    | none => rfl
    | some found =>
      simp only [Option.map_some, Option.bind_some, h.isAt_image]
      split <;> rfl

/-- A body closes at the image. -/
theorem bodyCloser?_image (h : Mirrors s s' φ) (hi : s.isAt i .closeTag = false) :
    s'.bodyCloser? (φ i) = (s.bodyCloser? i).map φ := by
  rw [bodyCloser?, bodyCloser?, h.bodyOpener?_image hi]
  cases s.bodyOpener? i with
  | none => rfl
  | some opener => exact h.partner?_image opener

/-- A body lies between the images of its braces. -/
theorem body?_image (h : Mirrors s s' φ) (hi : s.isAt i .closeTag = false) :
    s'.body? (φ i) = (s.body? i).map (movePair φ) := by
  unfold body?
  rw [h.bodyOpener?_image hi]
  cases s.bodyOpener? i with
  | none => rfl
  | some opener =>
    simp only [Option.map_some, Option.bind_eq_bind, Option.bind_some, h.partner?_image]
    cases s.partner? opener <;> rfl

/-- The image lies in the image of a body when the index lies in the body. -/
theorem inside_image (h : Mirrors s s' φ) (i : Nat) (body : Nat × Nat) :
    inside (φ i) (movePair φ body) = inside i body := by
  simp only [inside, movePair, h.strictMono.lt_iff_lt]

/-- The bodies of the types of a file. -/
theorem typeBodies_image (h : Mirrors s s' φ) :
    NameScope.typeBodies s' = (NameScope.typeBodies s).map (movePair φ) := by
  obtain ⟨hrange', hrange⟩ := h.range_size_image
  have hstarts : (List.range' (φ 0) (φ s.size - φ 0)).filter
      (fun i => s'.isTypeDeclaration i || s'.isAnonymousClass i) =
        ((List.range' 0 (s.size - 0)).filter
          fun i => s.isTypeDeclaration i || s.isAnonymousClass i).map φ := by
    refine h.filter_range'_image (fun i _ _ => ?_) fun i htwo => ?_
    · rw [h.isTypeDeclaration_image, h.isAnonymousClass_image]
    · rw [isTypeDeclaration, isAnonymousClass, h.has_left htwo, h.isAt_left htwo (by decide)]
      rfl
  unfold NameScope.typeBodies
  rw [hrange', hrange, hstarts, List.filterMap_map, List.map_filterMap]
  refine List.filterMap_congr fun i hi => ?_
  have hstart := (List.mem_filter.1 hi).2
  obtain ⟨k, hk, -, hclose⟩ : ∃ k, s.isAt i k = true ∧ k ≠ .openTag ∧ k ≠ .closeTag := by
    rcases (Bool.or_eq_true _ _).mp hstart with hstart | hstart
    · exact exists_of_isTypeDeclaration hstart
    · exact exists_of_isAnonymousClass hstart
  exact h.body?_image (not_closeTag_of_isAt hk hclose)

/-! ## Names -/

/-- What is no word is no segment of a name. -/
theorem all_isSegmentChar_of_isNoWord {t : Text} (h : Text.isNoWord t = true) :
    t.all isSegmentChar = false := by
  obtain ⟨c, hc, houtside⟩ := List.any_eq_true.1 h
  refine List.all_eq_false.2 ⟨c, hc, ?_⟩
  simp only [isOutsideWords, isBlank, Bool.or_eq_true, beq_iff_eq] at houtside
  rcases houtside with ((rfl | rfl) | rfl) | rfl <;> decide +kernel

/-- A token that is neither a separator nor a word goes on a name only behind a separator. -/
theorem namePart?_of_other {t : Token} (hseparator : t.kind ≠ .backslash)
    (hword : t.kind ≠ .identifier) (name : Text) :
    namePart? name t =
      if name.getLast? = some '\\' && t.content.all isSegmentChar then some t.content else none := by
  unfold namePart?
  split
  · next hkind => exact absurd hkind hseparator
  · next hkind => exact absurd hkind hword
  · rfl

/-- Tokens that are alike add the same to a name. -/
theorem namePart?_alike {t t' : Token} (h : Token.Alike t t') {name : Text}
    (hname : t.kind = .inlineHtml → name = []) : namePart? name t' = namePart? name t := by
  by_cases hseparator : t.kind = .backslash
  · unfold namePart?
    rw [h.kind, hseparator]
  by_cases hword : t.kind = .identifier
  · unfold namePart?
    rw [h.kind, hword, h.plain (by rw [hword]; rfl)]
  rw [namePart?_of_other hseparator hword,
    namePart?_of_other (by rwa [h.kind]) (by rwa [h.kind])]
  by_cases hhtml : t.kind = .inlineHtml
  · rw [hname hhtml]
    rfl
  · rcases h.content hhtml with heq | ⟨hnone, hnone'⟩
    · rw [heq]
    · rw [all_isSegmentChar_of_isNoWord hnone, all_isSegmentChar_of_isNoWord hnone', Bool.and_false,
        if_neg Bool.false_ne_true, if_neg Bool.false_ne_true]

/-- A part of a name is no closing tag. -/
theorem not_closeTag_of_namePart? {t t' : Token} (h : Token.Alike t t') {name part : Text}
    (hpart : namePart? name t = some part) : t.kind ≠ .closeTag ∧ Text.isNoWord part = false := by
  by_cases hseparator : t.kind = .backslash
  · unfold namePart? at hpart
    rw [hseparator] at hpart
    obtain rfl := Option.some.inj hpart
    exact ⟨by rw [hseparator]; decide, rfl⟩
  by_cases hword : t.kind = .identifier
  · unfold namePart? at hpart
    rw [hword] at hpart
    obtain rfl := Option.some.inj hpart
    exact ⟨by rw [hword]; decide, h.suits.word hword⟩
  rw [namePart?_of_other hseparator hword, Option.ite_none_right_eq_some, Bool.and_eq_true] at hpart
  obtain ⟨⟨-, hsegment⟩, heq⟩ := hpart
  obtain rfl := Option.some.inj heq
  have hwhole : Text.isNoWord t.content = false := by
    by_contra hnone
    rw [all_isSegmentChar_of_isNoWord (eq_true_of_ne_false hnone)] at hsegment
    cases hsegment
  refine ⟨fun hclose => ?_, hwhole⟩
  rw [h.suits.close hclose] at hwhole
  cases hwhole

/-- A name that is read up to the end of the stream. -/
theorem nameFrom_image (h : Mirrors s s' φ) {n : Nat} :
    ∀ name i, s.size - i = n → (s.isAt i .inlineHtml = true → name = []) →
      s'.nameFrom name (s'.size - φ i) (φ i) =
        ((s.nameFrom name n i).1, φ (s.nameFrom name n i).2) := by
  induction n with
  | zero =>
    intro name i hn _
    have hle : s'.size ≤ φ i := h.size ▸ h.strictMono.monotone (by omega)
    rw [Nat.sub_eq_zero_of_le hle]
    rfl
  | succ n ih =>
    intro name i hn hname
    have hlt : φ i < s'.size := h.size ▸ h.strictMono (show i < s.size by omega)
    obtain ⟨m, hm⟩ : ∃ m, s'.size - φ i = m + 1 := ⟨s'.size - φ i - 1, by omega⟩
    obtain ⟨t, ht⟩ : ∃ t, s.token? i = some t := exists_token? (by omega)
    obtain ⟨t', ht', halike⟩ := h.token i t ht
    have hpart : namePart? name t' = namePart? name t := by
      refine namePart?_alike halike fun hkind => hname ?_
      exact (isAt_of_token? ht .inlineHtml).2 hkind
    rw [hm, nameFrom, nameFrom, ht, ht', Option.bind_some, Option.bind_some, hpart]
    cases hfound : namePart? name t with
    | none => rfl
    | some part =>
      have hclose : s.isAt i .closeTag = false := by
        rw [Bool.eq_false_iff, Ne, isAt_of_token? ht]
        exact (not_closeTag_of_namePart? halike hfound).1
      have hsucc := h.image_succ hclose
      have hrest := ih (name ++ part) (i + 1) (by omega) fun hhtml => by
        rw [h.isAt_inlineHtml_succ hclose] at hhtml
        cases hhtml
      rw [show s'.size - φ (i + 1) = m by omega, hsucc] at hrest
      exact hrest

/-- The name at the image is the name at the index, and it ends at the image. -/
theorem readName?_image (h : Mirrors s s' φ) (i : Nat) :
    s'.readName? (φ i) = (s.readName? i).map fun r => (r.1, φ r.2) := by
  have hname := h.nameFrom_image [] i rfl fun _ => rfl
  unfold readName?
  rw [hname]
  dsimp only
  split <;> rfl

/-- A name that is read is a word, and code goes on behind it. -/
theorem nameFrom_word (h : Mirrors s s' φ) (n : Nat) :
    ∀ name i, Text.isNoWord name = false → s.isAt i .inlineHtml = false →
      Text.isNoWord (s.nameFrom name n i).1 = false ∧
        s.isAt (s.nameFrom name n i).2 .inlineHtml = false := by
  induction n with
  | zero => exact fun name i hname hinside => ⟨hname, hinside⟩
  | succ n ih =>
    intro name i hname hinside
    rw [nameFrom]
    cases ht : s.token? i with
    | none => exact ⟨hname, hinside⟩
    | some t =>
      obtain ⟨t', -, halike⟩ := h.token i t ht
      rw [Option.bind_some]
      cases hfound : namePart? name t with
      | none => exact ⟨hname, hinside⟩
      | some part =>
        obtain ⟨hclose, hpart⟩ := not_closeTag_of_namePart? halike hfound
        refine ih _ _ ?_ (h.isAt_inlineHtml_succ ?_)
        · rw [Text.isNoWord_append, hname, hpart]
          rfl
        · rw [Bool.eq_false_iff, Ne, isAt_of_token? ht]
          exact hclose

/-- Text outside of code starts no name. -/
theorem readName?_of_inlineHtml (hi : s.isAt i .inlineHtml = true) : s.readName? i = none := by
  obtain ⟨t, ht, hkind⟩ := exists_of_isAt hi
  have hpart : namePart? [] t = none := by
    rw [namePart?_of_other (by rw [hkind]; decide) (by rw [hkind]; decide)]
    rfl
  have hnone (n : Nat) : s.nameFrom [] n i = ([], i) := by
    cases n with
    | zero => rfl
    | succ n => rw [nameFrom, ht, Option.bind_some, hpart]
  rw [readName?, hnone]
  rfl

/-- A name that is read is a word, and behind it comes no text outside of code. -/
theorem readName?_word (h : Mirrors s s' φ) {name : Text} (hj : s.readName? i = some (name, j)) :
    Text.isNoWord name = false ∧ s.isAt j .inlineHtml = false := by
  have hinside : s.isAt i .inlineHtml = false := by
    by_contra hhtml
    rw [readName?_of_inlineHtml (eq_true_of_ne_false hhtml)] at hj
    cases hj
  have hword := h.nameFrom_word (s.size - i) [] i rfl hinside
  unfold readName? at hj
  dsimp only at hj
  split at hj
  · cases hj
  · obtain ⟨rfl, rfl⟩ := Prod.mk.inj (Option.some.inj hj)
    exact hword

end PhpLint.TokenStream.Mirrors

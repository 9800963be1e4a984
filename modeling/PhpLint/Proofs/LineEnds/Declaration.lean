import PhpLint.Proofs.LineEnds.NameScope
import PhpLint.Symbol.Table

/-!
# Declarations in mirrored streams

Both streams declare the same types: the lists of names in their headers are the same, and the cursor
of a body finds the same members, with line ends in between that are none.  Around an index and around
its image stands the same type.
-/

namespace PhpLint

open TokenStream (Mirrors)

namespace Declaration

variable {s s' : TokenStream} {φ : Nat → Nat} {scope scope' : NameScope}

/-! ## Lists of names -/

/-- The next name of a list stands at the image. -/
theorem nextInList?_image (h : Mirrors s s' φ) (after : Nat) :
    nextInList? s' (φ after) = (nextInList? s after).map φ := by
  unfold nextInList?
  rw [h.findNext_image (fun _ => rfl)]
  cases s.findNext Kind.isSignificant after with
  | none => rfl
  | some separator =>
    simp only [Option.map_some, Option.bind_eq_bind, Option.bind_some, h.isAt_image]
    by_cases hcomma : s.isAt separator .comma = true
    · rw [if_pos hcomma, if_pos hcomma,
        h.nextSignificant_image (Mirrors.not_closeTag_of_isAt hcomma (by decide))]
    · rw [if_neg hcomma, if_neg hcomma]
      rfl

/-- The names of a list are the same, and no line end is among them. -/
theorem namesFrom_image (h : Mirrors s s' φ) (start : Nat) :
    namesFrom s' (φ start) = namesFrom s start ∧
      ∀ name ∈ namesFrom s start, Text.isNoWord name = false := by
  induction start using namesFrom.induct s with
  | case1 start hnone =>
    rw [namesFrom_eq, namesFrom_eq, h.readName?_image, hnone]
    exact ⟨rfl, fun _ hmem => by cases hmem⟩
  | case2 start name after hname hlast =>
    rw [namesFrom_eq, namesFrom_eq s, h.readName?_image, hname, Option.map_some]
    dsimp only
    rw [nextInList?_image h, hlast]
    refine ⟨rfl, fun other hmem => ?_⟩
    rw [List.mem_singleton.1 hmem]
    exact (h.readName?_word hname).1
  | case3 start name after hname next hnext ih =>
    rw [namesFrom_eq, namesFrom_eq s, h.readName?_image, hname, Option.map_some]
    dsimp only
    rw [nextInList?_image h, hnext]
    refine ⟨congrArg (name :: ·) ih.1, fun other hmem => ?_⟩
    rcases List.mem_cons.1 hmem with rfl | hmem
    · exact (h.readName?_word hname).1
    · exact ih.2 other hmem

/-! ## The cursor of a body -/

/-- A method starts at the image when one starts at the index. -/
theorem startsMethod_image (h : Mirrors s s' φ) (i : Nat) : startsMethod s' (φ i) = startsMethod s i := by
  rw [startsMethod, startsMethod, h.isAt_image, h.isClosure_image]

theorem not_closeTag_of_startsMethod {i : Nat} (hi : startsMethod s i = true) :
    s.isAt i .closeTag = false := by
  rw [startsMethod, Bool.and_eq_true] at hi
  exact Mirrors.not_closeTag_of_isAt hi.1 (by decide)

/-- A member ends at the image of its end. -/
theorem memberEnd_image (h : Mirrors s s' φ) (closer i : Nat) :
    memberEnd s' (φ closer) (φ i) = φ (memberEnd s closer i) := by
  unfold memberEnd
  rw [startsMethod_image h]
  by_cases hmethod : startsMethod s i = true
  · rw [if_pos hmethod, if_pos hmethod, h.bodyCloser?_image (not_closeTag_of_startsMethod hmethod),
      h.findNext_image (p := (· == .semicolon)) (by decide)]
    cases s.bodyCloser? i with
    | some bodyEnd => rfl
    | none => cases s.findNext (· == .semicolon) i <;> rfl
  · rw [if_neg hmethod, if_neg hmethod]

/-- A line end that is left is no member. -/
theorem members_succ {α : Type} (h : Mirrors s s' φ) {f : Member → List α} (hother : f .other = [])
    (closer i : Nat) :
    (membersFrom s' scope' (φ closer) (φ i + 1)).flatMap f =
      (membersFrom s' scope' (φ closer) (φ (i + 1))).flatMap f := by
  rcases h.succ i with hone | ⟨htwo, -⟩
  · rw [hone]
  · have hmethod : startsMethod s' (φ i + 1) = false := by
      rw [startsMethod, h.isAt_left htwo (by decide), Bool.false_and]
    have hmember : memberAt s' scope' (φ i + 1) = .other := by
      rw [memberAt, hmethod, h.isAt_left htwo (by decide), if_neg Bool.false_ne_true,
        if_neg Bool.false_ne_true]
    have hnext : memberNext s' (φ closer) (φ i + 1) = φ (i + 1) := by
      rw [memberNext, memberEnd, hmethod, if_neg Bool.false_ne_true, htwo]
    -- A member may end at the closer or behind it; then neither list goes on.
    by_cases hlt : φ i + 1 < φ closer
    · rw [membersFrom_of_lt hlt, List.flatMap_cons, hmember, hother, hnext, List.nil_append]
    · rw [membersFrom_of_not_lt hlt, membersFrom_of_not_lt (by omega)]

/-! ## Names and members in full -/

section Scoped

variable (h : Mirrors s s' φ) (hscope : NameScope.Alike φ scope scope')

include h hscope

/-- In full, the names behind a keyword are the same. -/
theorem namesAfter_image {keyword : Nat} (hkeyword : s.isAt keyword .closeTag = false) :
    namesAfter s' scope' (φ keyword) = namesAfter s scope keyword := by
  unfold namesAfter
  rw [h.nextSignificant_image hkeyword]
  cases s.nextSignificant keyword with
  | none => rfl
  | some start =>
    obtain ⟨hsame, hword⟩ := namesFrom_image h start
    dsimp only [Option.map_some]
    rw [hsame]
    exact List.map_congr_left fun name hname =>
      NameScope.qualify_image h hscope (hword name hname) keyword

/-- What is listed between two indices is listed between their images. -/
theorem listedIn_image {p : Kind → Bool} (hhtml : p .inlineHtml = false)
    (hclose : p .closeTag = false) (start stop : Nat) :
    listedIn s' scope' p (φ start) (φ stop) = listedIn s scope p start stop := by
  unfold listedIn
  rw [h.find?_reverse_range'_image (q := (s.has · p)) (fun i _ _ => h.has_image i p)
    fun i htwo => (h.has_left htwo p).trans hhtml]
  cases hfound : (List.range' start (stop - start)).reverse.find? (s.has · p) with
  | none => rfl
  | some keyword =>
    have hkeyword : s.has keyword p = true := List.find?_some (p := (s.has · p)) hfound
    exact namesAfter_image h hscope (Mirrors.not_closeTag_of_has hkeyword hclose)

/-- The member at the image is the member at the index. -/
theorem memberAt_image (i : Nat) : memberAt s' scope' (φ i) = memberAt s scope i := by
  unfold memberAt
  rw [startsMethod_image h, h.isAt_image]
  by_cases hmethod : startsMethod s i = true
  · rw [if_pos hmethod, if_pos hmethod,
      h.declaredName?_image (not_closeTag_of_startsMethod hmethod)]
  · rw [if_neg hmethod, if_neg hmethod]
    by_cases huse : s.isAt i (.keyword .kwUse) = true
    · rw [if_pos huse, if_pos huse,
        namesAfter_image h hscope (Mirrors.not_closeTag_of_isAt huse (by decide))]
    · rw [if_neg huse, if_neg huse]

/-- What is read off the members of a body, when nothing is read off what is no member. -/
theorem membersFrom_image {α : Type} {f : Member → List α} (hother : f .other = [])
    (closer i : Nat) :
    (membersFrom s' scope' (φ closer) (φ i)).flatMap f =
      (membersFrom s scope closer i).flatMap f := by
  induction i using membersFrom.induct s closer with
  | case1 i hlt ih =>
    rw [membersFrom_of_lt (h.strictMono hlt), membersFrom_of_lt hlt, List.flatMap_cons,
      List.flatMap_cons, memberAt_image h hscope, memberNext, memberEnd_image h,
      members_succ h hother]
    exact congrArg _ ih
  | case2 i hge =>
    have hge' : ¬φ i < φ closer := fun hlt => hge (h.strictMono.lt_iff_lt.1 hlt)
    rw [membersFrom_of_not_lt hge', membersFrom_of_not_lt hge]

end Scoped

/-! ## Types -/

theorem ne_closeTag_of_sortOf? {k : Kind} {sort : TypeSort} (h : sortOf? k = some sort) :
    k ≠ .closeTag := by
  rintro rfl
  cases h

theorem isNoWord_of_declaredName? (h : Mirrors s s' φ) {i : Nat} {word : Text}
    (hword : s.declaredName? i = some word) : Text.isNoWord word = false := by
  obtain ⟨k, hat, rfl⟩ := TokenStream.exists_of_declaredName? hword
  exact h.isNoWord_content hat

/-- A body starts with a brace. -/
theorem isAt_of_body? {i opener closer : Nat} (hbody : s.body? i = some (opener, closer)) :
    s.isAt opener (.opens .curly) = true := by
  unfold TokenStream.body? at hbody
  obtain ⟨j, hj, hrest⟩ := Option.bind_eq_some_iff.1 hbody
  obtain ⟨k, -, hk⟩ := Option.bind_eq_some_iff.1 hrest
  obtain ⟨rfl, -⟩ := Prod.mk.inj (Option.some.inj hk)
  exact (TokenStream.lt_of_bodyOpener? hj).2

/-- The declaration at the image is the declaration at the index. -/
theorem read?_image (h : Mirrors s s' φ) (hscope : NameScope.Alike φ scope scope') (i : Nat) :
    read? s' scope' (φ i) = read? s scope i := by
  unfold read?
  rw [h.kind?_image]
  cases hkind : s.kind? i with
  | none => rfl
  | some k =>
    cases hsort : sortOf? k with
    | none => simp [hsort]
    | some sort =>
      have hclose : s.isAt i .closeTag = false :=
        Mirrors.not_closeTag_of_isAt (TokenStream.isAt_iff.2 hkind) (ne_closeTag_of_sortOf? hsort)
      simp only [Option.bind_eq_bind, Option.bind_some, hsort, h.declaredName?_image hclose,
        h.body?_image hclose]
      cases hname : s.declaredName? i with
      | none => rfl
      | some shortName =>
        cases hbody : s.body? i with
        | none => rfl
        | some body =>
          obtain ⟨opener, closer⟩ := body
          have hopener := Mirrors.not_closeTag_of_isAt (isAt_of_body? hbody) (by decide)
          have hname := NameScope.qualify_image h hscope (isNoWord_of_declaredName? h hname) i
          have hmembers {α : Type} {f : Member → List α} (hother : f .other = []) :
              (membersFrom s' scope' (φ closer) (φ opener + 1)).flatMap f =
                (membersFrom s scope closer (opener + 1)).flatMap f := by
            rw [← h.image_succ hopener]
            exact membersFrom_image h hscope hother closer (opener + 1)
          have hextends := listedIn_image h hscope (p := (· == .keyword .kwExtends)) rfl rfl i opener
          have hinterfaces := listedIn_image h hscope
            (p := fun k => k == .keyword .kwImplements ||
              decide (sort = .interfaceType) && k == .keyword .kwExtends)
            (Bool.and_false _) (Bool.and_false _) i opener
          simp only [Option.map_some, Option.bind_some, Mirrors.movePair, hname,
            List.filterMap_eq_flatMap_toList, hmembers (f := Member.traitNames) rfl,
            hmembers (f := fun m => m.method?.toList) rfl, hextends, hinterfaces]

/-- Both streams declare the same types. -/
theorem ofStream_image (h : Mirrors s s' φ) : ofStream s' = ofStream s := by
  obtain ⟨hrange', hrange⟩ := h.range_size_image
  have hscope := NameScope.ofStream_alike h
  have hkeywords : (List.range' (φ 0) (φ s.size - φ 0)).filter s'.isTypeDeclaration =
      ((List.range' 0 (s.size - 0)).filter s.isTypeDeclaration).map φ :=
    h.filter_range'_image (fun i _ _ => h.isTypeDeclaration_image i) fun i htwo => by
      rw [TokenStream.isTypeDeclaration, h.has_left htwo]
      rfl
  simp only [ofStream]
  rw [hrange', hrange, hkeywords, List.filterMap_map]
  exact List.filterMap_congr fun i _ => read?_image h hscope i

end Declaration

/-! ## The type around an index -/

namespace SymbolTable

variable {s s' : TokenStream} {φ : Nat → Nat}

/-- Both forms of a file give one table. -/
theorem ofStreams_image (h : Mirrors s s' φ) : ofStreams [s'] = ofStreams [s] := by
  simp only [ofStreams, List.foldl_cons, List.foldl_nil, addFile, Declaration.ofStream_image h]

/-- The keyword of the type around the image is the image of the keyword around the index. -/
theorem keywordAround?_image (h : Mirrors s s' φ) (i : Nat) :
    keywordAround? s' (φ i) = (keywordAround? s i).map φ := by
  have hrange : List.range (φ i) = List.range' (φ 0) (φ i - φ 0) := by
    rw [h.zero, Nat.sub_zero, List.range_eq_range']
  rw [keywordAround?, keywordAround?, hrange, List.range_eq_range']
  refine h.find?_reverse_range'_image (b := i) (fun k _ _ => ?_) fun k htwo => ?_
  · rw [h.isTypeDeclaration_image]
    by_cases hk : s.isTypeDeclaration k = true
    · obtain ⟨kind, hat, -, hclose⟩ := Mirrors.exists_of_isTypeDeclaration hk
      rw [h.body?_image (Mirrors.not_closeTag_of_isAt hat hclose), Option.any_map]
      simp only [h.inside_image]
    · rw [eq_false_of_ne_true hk, Bool.false_and, Bool.false_and]
  · rw [TokenStream.isTypeDeclaration, h.has_left htwo]
    rfl

/-- Around the image stands the same type. -/
theorem typeAt?_image (h : Mirrors s s' φ) (t : SymbolTable) (i : Nat) :
    t.typeAt? s' (φ i) = t.typeAt? s i := by
  unfold typeAt?
  rw [keywordAround?_image h]
  cases hkeyword : keywordAround? s i with
  | none => rfl
  | some keyword =>
    have hdeclares := List.find?_some hkeyword
    rw [Bool.and_eq_true] at hdeclares
    obtain ⟨kind, hat, -, hclose⟩ := Mirrors.exists_of_isTypeDeclaration hdeclares.1
    simp only [Option.map_some, Option.bind_eq_bind, Option.bind_some,
      h.declaredName?_image (Mirrors.not_closeTag_of_isAt hat hclose)]
    cases hname : s.declaredName? keyword with
    | none => rfl
    | some shortName =>
      have hword := Declaration.isNoWord_of_declaredName? h hname
      simp only [Option.bind_some, NameScope.qualify_image h (NameScope.ofStream_alike h) hword]

end SymbolTable

end PhpLint

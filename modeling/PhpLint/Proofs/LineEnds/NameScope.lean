import PhpLint.Proofs.LineEnds.Import

/-!
# What names mean in mirrored streams

The namespace statements of the one stream are the images of those of the other, and so are the
imports.  A name that is a word then has the same full name at an index and at its image: an alias that
is no word is not the front of any such name.
-/

namespace List

/-- Searches of related lists for what fits in the same way. -/
theorem find?_rel {α β : Type*} {R : α → β → Prop} {p : α → Bool} {q : β → Bool}
    (hpq : ∀ a b, R a b → q b = p a) {xs : List α} {ys : List β} (h : Forall₂ R xs ys) :
    Option.Rel R (xs.find? p) (ys.find? q) := by
  induction h with
  | nil => exact .none
  | @cons a b xs ys hab _ ih =>
    rw [find?_cons, find?_cons, hpq a b hab]
    cases p a with
    | true => exact .some hab
    | false => exact ih

end List

namespace PhpLint

open TokenStream (Mirrors)

namespace NameScope

variable {s s' : TokenStream} {φ : Nat → Nat}

/-- A namespace statement in the other stream. -/
def moveMark (φ : Nat → Nat) (m : NamespaceMark) : NamespaceMark := ⟨φ m.index, m.name⟩

/-- Scopes in which names mean the same. -/
structure Alike (φ : Nat → Nat) (scope scope' : NameScope) : Prop where
  marks : scope'.marks = scope.marks.map (moveMark φ)
  imports : List.Forall₂ (Import.Alike φ) scope.imports scope'.imports

/-! ## Statements -/

/-- A namespace statement stands at the image, with the same name. -/
theorem mark?_image (h : Mirrors s s' φ) (i : Nat) :
    mark? s' (φ i) = (mark? s i).map (moveMark φ) := by
  unfold mark?
  rw [h.isAt_image]
  by_cases hi : s.isAt i (.keyword .kwNamespace) = true
  · rw [if_pos hi, if_pos hi, h.nextSignificant_image (Mirrors.not_closeTag_of_isAt hi (by decide))]
    cases s.nextSignificant i with
    | none => rfl
    | some start =>
      simp only [Option.map_some, Option.bind_some, h.isAt_image, h.readName?_image, Option.map_map,
        Function.comp_def]
      split <;> rfl
  · rw [if_neg hi, if_neg hi]
    rfl

/-- A statement imports at the image when it does at the index. -/
theorem startsImport_image (h : Mirrors s s' φ) (bodies : List (Nat × Nat)) (i : Nat) :
    startsImport s' (bodies.map (Mirrors.movePair φ)) (φ i) = startsImport s bodies i := by
  rw [startsImport, startsImport, h.isAt_image]
  by_cases hi : s.isAt i (.keyword .kwUse) = true
  · rw [h.previousSignificant_image (Mirrors.not_openTag_of_isAt hi (by decide)), Option.any_map,
      List.any_map]
    simp only [Function.comp_def, h.isAt_image, h.inside_image]
  · rw [eq_false_of_ne_true hi, Bool.false_and, Bool.false_and, Bool.false_and, Bool.false_and]

/-- Names mean the same in the scopes of both forms. -/
theorem ofStream_alike (h : Mirrors s s' φ) : Alike φ (ofStream s) (ofStream s') := by
  obtain ⟨hrange', hrange⟩ := h.range_size_image
  constructor
  case marks =>
    simp only [ofStream]
    rw [hrange', hrange, List.map_filterMap]
    refine h.filterMap_range'_image (fun i _ _ => mark?_image h i) fun i htwo => ?_
    rw [mark?, h.isAt_left htwo (by decide), if_neg Bool.false_ne_true]
  case imports =>
    have hstarts : (List.range' (φ 0) (φ s.size - φ 0)).filter (startsImport s' (typeBodies s')) =
        ((List.range' 0 (s.size - 0)).filter (startsImport s (typeBodies s))).map φ := by
      refine h.filter_range'_image (fun i _ _ => ?_) fun i htwo => ?_
      · rw [h.typeBodies_image, startsImport_image h]
      · rw [startsImport, h.isAt_left htwo (by decide)]
        rfl
    simp only [ofStream]
    rw [hrange', hrange, hstarts]
    refine List.rel_flatMap (R := fun i i' => i' = φ i ∧ s.isAt i .closeTag = false) ?_ ?_
    · refine List.forall₂_map_right_iff.2 (List.forall₂_same.2 fun i hi => ⟨rfl, ?_⟩)
      have hstart := (List.mem_filter.1 hi).2
      rw [startsImport, Bool.and_eq_true, Bool.and_eq_true] at hstart
      exact Mirrors.not_closeTag_of_isAt hstart.1.1 (by decide)
    · rintro i i' ⟨rfl, hi⟩
      exact Import.ofUse_image h hi

/-! ## Names -/

/-- The first segment of a word is a word. -/
theorem isNoWord_splitFirst {name : Text} (hname : Text.isNoWord name = false) :
    Text.isNoWord (splitFirst name).1 = false := by
  unfold splitFirst
  cases hcut : Text.cut ['\\'] name with
  | none => exact hname
  | some halves =>
    obtain ⟨first, rest⟩ := halves
    rw [Text.cut_eq_some_append hcut, Text.isNoWord_append, Text.isNoWord_append,
      Bool.or_eq_false_iff, Bool.or_eq_false_iff] at hname
    exact hname.1.1

section Meaning

variable {scope scope' : NameScope} (h : Mirrors s s' φ) (hscope : Alike φ scope scope')

include h hscope

/-- The statement that governs the image is the image of the one that governs the index. -/
theorem markAt?_image (i : Nat) : scope'.markAt? (φ i) = (scope.markAt? i).map (moveMark φ) := by
  simp only [markAt?, hscope.marks, ← List.map_reverse, List.find?_map, Function.comp_def, moveMark,
    h.strictMono.lt_iff_lt]

/-- An import counts at the image when it counts at the index. -/
theorem governs_image (start i : Nat) : scope'.governs (φ start) (φ i) = scope.governs start i := by
  simp only [governs, hscope.marks, List.find?_map, Function.comp_def, moveMark,
    h.strictMono.lt_iff_lt, h.strictMono.le_iff_le, Option.all_map]

/-- A word is imported by statements that import the same. -/
theorem import?_image {first : Text} (hfirst : Text.isNoWord first = false) (start : Nat) :
    Option.Rel (Import.Alike φ) (scope.import? start first) (scope'.import? (φ start) first) :=
  List.find?_rel
    (fun im im' halike => by
      rw [halike.index, governs_image h hscope, halike.shortName.sameLetters hfirst]) hscope.imports

/-- The full name of a word. -/
theorem qualify_image {name : Text} (hname : Text.isNoWord name = false) (i : Nat) :
    scope'.qualify name (φ i) = scope.qualify name i := by
  have hmark : (scope'.markAt? (φ i)).getD ⟨0, []⟩ = moveMark φ ((scope.markAt? i).getD ⟨0, []⟩) := by
    rw [markAt?_image h hscope]
    cases scope.markAt? i with
    | none => exact congrArg (NamespaceMark.mk · []) h.zero.symm
    | some m => rfl
  -- The import that is found has the same target, and its alias is not looked at any more.
  rw [qualify_eq, qualify_eq, hmark]
  cases Text.stripStart ['\\'] name with
  | some absolute => rfl
  | none =>
    generalize (scope.markAt? i).getD ⟨0, []⟩ = mark
    have himport := import?_image h hscope (isNoWord_splitFirst hname) mark.index
    dsimp only [moveMark]
    generalize scope.import? mark.index (splitFirst name).1 = im at himport ⊢
    generalize scope'.import? (φ mark.index) (splitFirst name).1 = im' at himport ⊢
    cases himport with
    | none => rfl
    | some halike =>
      cases (splitFirst name).2 with
      | none => exact halike.target
      | some rest => exact congrArg (qualifyWith · rest) halike.target

end Meaning

end NameScope

end PhpLint

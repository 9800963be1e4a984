import Mathlib.Data.List.Forall2
import PhpLint.Proofs.LineEnds.Scope
import PhpLint.Proofs.Symbols.Unfolding

/-!
# Imports in mirrored streams

The statements of both streams import the same names, each at the image of its keyword.  The alias of a
name may be any token that carries code, so the aliases agree only as far as they are words.
-/

namespace PhpLint

open TokenStream (Mirrors)

namespace Import

variable {s s' : TokenStream} {φ : Nat → Nat}

/-- Imports of one name by keywords at one place. -/
structure Alike (φ : Nat → Nat) (im im' : Import) : Prop where
  index : im'.index = φ im.index
  target : im'.target = im.target
  shortName : Text.SameWord im.shortName im'.shortName

/-- The cursor of a statement in the other stream. -/
def moveCursor (φ : Nat → Nat) (c : UseCursor) : UseCursor := ⟨φ c.index, c.group⟩

/-- Behind a name a statement goes on only at a comma or at the closing brace of a group. -/
theorem cursorAfter?_of_other {i : Nat} {k : Kind} (group : Text) (hi : s.isAt i k = true)
    (hcode : k.isSignificant = true) (hcomma : k ≠ .comma) (hcloser : k ≠ .closes .curly) :
    cursorAfter? s group i = none := by
  have hfound : s.findNext Kind.isSignificant i = some i :=
    TokenStream.findNext_eq_some_iff.2 ⟨Nat.le_refl i, by rwa [TokenStream.has_of_isAt hi],
      fun k hik hki => absurd hki (Nat.not_lt.2 hik)⟩
  have hnot {k' : Kind} (hk : k ≠ k') : ¬s.isAt i k' = true := by
    rw [TokenStream.isAt_iff, TokenStream.isAt_iff.1 hi]
    simpa using hk
  unfold cursorAfter?
  rw [hfound]
  simp only [Option.bind_eq_bind, Option.bind_some, if_neg (hnot hcomma), if_neg (hnot hcloser)]

/-- A statement goes on at the image. -/
theorem cursorAfter?_image (h : Mirrors s s' φ) (group : Text) (after : Nat) :
    cursorAfter? s' group (φ after) = (cursorAfter? s group after).map (moveCursor φ) := by
  unfold cursorAfter?
  rw [h.findNext_image (fun _ => rfl)]
  cases s.findNext Kind.isSignificant after with
  | none => rfl
  | some separator =>
    simp only [Option.map_some, Option.bind_eq_bind, Option.bind_some, h.isAt_image]
    by_cases hcomma : s.isAt separator .comma = true
    · have hclose := Mirrors.not_closeTag_of_isAt hcomma (by decide)
      rw [if_pos hcomma, if_pos hcomma, h.nextSignificant_image hclose]
      cases s.nextSignificant separator <;> rfl
    · rw [if_neg hcomma, if_neg hcomma]
      by_cases hcloser : s.isAt separator (.closes .curly) = true
      · have hclose := Mirrors.not_closeTag_of_isAt hcloser (by decide)
        rw [if_pos hcloser, if_pos hcloser, h.nextSignificant_image hclose]
        cases s.nextSignificant separator with
        | none => rfl
        | some comma =>
          simp only [Option.map_some, Option.bind_some, h.isAt_image]
          by_cases hcomma' : s.isAt comma .comma = true
          · have hclose' := Mirrors.not_closeTag_of_isAt hcomma' (by decide)
            rw [if_pos hcomma', if_pos hcomma', h.nextSignificant_image hclose']
            cases s.nextSignificant comma <;> rfl
          · rw [if_neg hcomma', if_neg hcomma']
            rfl
      · rw [if_neg hcloser, if_neg hcloser]
        rfl

/-- Behind an alias, which may be a closing tag. -/
theorem cursorAfter?_succ (h : Mirrors s s' φ) (group : Text) (name : Nat) :
    cursorAfter? s' group (φ name + 1) = (cursorAfter? s group (name + 1)).map (moveCursor φ) := by
  rcases h.succ name with hone | ⟨-, -, hhtml, hnext⟩
  · rw [← hone]
    exact cursorAfter?_image h group (name + 1)
  · -- The one form ends at the line end that is left, the other at the open tag behind, if there is one.
    rw [cursorAfter?_of_other group (TokenStream.isAt_iff.2 hhtml) rfl (by decide) (by decide)]
    cases hkind : s.kind? (name + 1) with
    | some k =>
      obtain rfl := hnext k hkind
      rw [cursorAfter?_of_other group (TokenStream.isAt_iff.2 hkind) rfl (by decide) (by decide)]
      rfl
    | none =>
      have hend : s.size ≤ name + 1 := by
        by_contra hlt
        obtain ⟨k, hk⟩ := TokenStream.exists_kind? (Nat.lt_of_not_le hlt)
        rw [hkind] at hk
        cases hk
      have hnone : s.findNext Kind.isSignificant (name + 1) = none := by
        refine TokenStream.findNext_eq_none_iff.2 fun k hk => ?_
        by_contra hhas
        have hsize := TokenStream.lt_size_of_has (eq_true_of_ne_false hhas)
        omega
      unfold cursorAfter?
      rw [hnone]
      rfl

/-! ## Aliases -/

/-- An alias stands at the image, and it is code. -/
theorem aliasIndex?_image (h : Mirrors s s' φ) {after : Nat}
    (hafter : s.isAt after .inlineHtml = false) :
    aliasIndex? s' (φ after) = (aliasIndex? s after).map φ ∧
      ∀ name ∈ aliasIndex? s after, s.isAt name .inlineHtml = false := by
  unfold aliasIndex?
  rw [h.findNext_image (fun _ => rfl)]
  cases hword : s.findNext Kind.isSignificant after with
  | none => exact ⟨rfl, fun _ hname => by cases hname⟩
  | some word =>
    have hinside := h.inside_of_findNext rfl hafter hword
    have hsame : Text.sameLetters (s'.content (φ word)) "as".toList = _ :=
      h.sameLetters_content_image hinside rfl
    simp only [Option.map_some, Option.bind_eq_bind, Option.bind_some, hsame]
    by_cases has : Text.sameLetters (s.content word) "as".toList = true
    · have hclose : s.isAt word .closeTag = false := by
        refine h.not_closeTag_of_word ?_
        by_contra hnone
        rw [Text.sameLetters_of_isNoWord (eq_true_of_ne_false hnone) rfl] at has
        cases has
      rw [if_pos has, if_pos has]
      exact ⟨h.nextSignificant_image hclose, fun name hname => h.inside_of_nextSignificant hclose hname⟩
    · rw [if_neg has, if_neg has]
      exact ⟨rfl, fun _ hname => by cases hname⟩

/-- An alias, and where the statement goes on behind it. -/
theorem aliasFrom_image (h : Mirrors s s' φ) (group target : Text) {after : Nat}
    (hafter : s.isAt after .inlineHtml = false) :
    Text.SameWord (aliasFrom s target after).1 (aliasFrom s' target (φ after)).1 ∧
      cursorAfter? s' group (aliasFrom s' target (φ after)).2 =
        (cursorAfter? s group (aliasFrom s target after).2).map (moveCursor φ) := by
  obtain ⟨hindex, hinside⟩ := aliasIndex?_image h hafter
  rw [aliasFrom_eq, aliasFrom_eq, hindex]
  cases hname : aliasIndex? s after with
  | none => exact ⟨.inl rfl, cursorAfter?_image h group after⟩
  | some name => exact ⟨h.sameWord_content (hinside name hname), cursorAfter?_succ h group name⟩

/-! ## Statements -/

/-- One step of a statement imports the same name and goes on at the image. -/
theorem step_image (h : Mirrors s s' φ) (useIndex : Nat) (c : UseCursor) :
    List.Forall₂ (Alike φ) (step s useIndex c).1.toList
        (step s' (φ useIndex) (moveCursor φ c)).1.toList ∧
      (step s' (φ useIndex) (moveCursor φ c)).2 = (step s useIndex c).2.map (moveCursor φ) := by
  have hread : s'.readName? (moveCursor φ c).index = _ := h.readName?_image c.index
  unfold step
  rw [hread]
  cases hname : s.readName? c.index with
  | none => exact ⟨.nil, rfl⟩
  | some r =>
    obtain ⟨name, after⟩ := r
    simp only [Option.map_some, h.isAt_image]
    by_cases hopener : s.isAt after (.opens .curly) = true
    · have hclose := Mirrors.not_closeTag_of_isAt hopener (by decide)
      rw [if_pos hopener, if_pos hopener, h.nextSignificant_image hclose, Option.map_map,
        Option.map_map]
      exact ⟨.nil, rfl⟩
    · rw [if_neg hopener, if_neg hopener]
      obtain ⟨hshort, hcursor⟩ :=
        aliasFrom_image h c.group (targetOf c.group name) (h.readName?_word hname).2
      exact ⟨.cons ⟨rfl, rfl, hshort⟩ .nil, hcursor⟩

/-- From the image of a cursor on a statement imports the same names. -/
theorem fromCursor_image (h : Mirrors s s' φ) (useIndex : Nat) (c : UseCursor) :
    List.Forall₂ (Alike φ) (fromCursor s useIndex c)
      (fromCursor s' (φ useIndex) (moveCursor φ c)) := by
  induction c using fromCursor.induct s useIndex with
  | case1 c hstop =>
    obtain ⟨hfirst, hnext⟩ := step_image h useIndex c
    rw [fromCursor_eq, fromCursor_eq, hnext, hstop]
    simpa using hfirst
  | case2 c next hgo ih =>
    obtain ⟨hfirst, hnext⟩ := step_image h useIndex c
    rw [fromCursor_eq, fromCursor_eq s', hnext, hgo]
    exact List.rel_append hfirst ih

/-- A statement imports functions or constants in both forms or in neither. -/
theorem isForeign_image (h : Mirrors s s' φ) {i : Nat} (hi : s.isAt i .inlineHtml = false) :
    isForeign (s'.content (φ i)) = isForeign (s.content i) := by
  rw [isForeign, isForeign, h.sameLetters_content_image hi rfl, h.sameLetters_content_image hi rfl]

/-- The imports of a `use` statement. -/
theorem ofUse_image (h : Mirrors s s' φ) {useIndex : Nat}
    (huse : s.isAt useIndex .closeTag = false) :
    List.Forall₂ (Alike φ) (ofUse s useIndex) (ofUse s' (φ useIndex)) := by
  unfold ofUse
  rw [h.nextSignificant_image huse]
  cases hfirst : s.nextSignificant useIndex with
  | none => exact .nil
  | some first =>
    simp only [Option.map_some, isForeign_image h (h.inside_of_nextSignificant huse hfirst)]
    by_cases hforeign : isForeign (s.content first) = true
    · rw [if_pos hforeign, if_pos hforeign]
      exact .nil
    · rw [if_neg hforeign, if_neg hforeign]
      exact fromCursor_image h useIndex ⟨first, []⟩

end Import

end PhpLint

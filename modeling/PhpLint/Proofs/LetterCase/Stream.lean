import PhpLint.Proofs.LetterCase.Text

/-!
# Streams with their letters folded

The folded stream has the same tokens at the same places, with their letters folded.  What is asked
of kinds is the same for both streams, and a text that is read from tokens is read folded.
-/

namespace PhpLint

/-- The token with its letters folded. -/
def Token.foldCase (t : Token) : Token := { t with content := Text.foldCase t.content }

namespace TokenStream

variable (s : TokenStream)

/-- The stream with the letters of all its tokens folded. -/
def foldCase : TokenStream where
  tokens := s.tokens.map Token.foldCase

/-! ## Tokens and searches -/

@[simp] theorem size_foldCase : s.foldCase.size = s.size := Array.size_map

@[simp] theorem token?_foldCase (i : Nat) :
    s.foldCase.token? i = (s.token? i).map Token.foldCase :=
  Array.getElem?_map

@[simp] theorem kind?_foldCase (i : Nat) : s.foldCase.kind? i = s.kind? i := by
  simp [kind?, Function.comp_def, Token.foldCase]

@[simp] theorem has_foldCase (i : Nat) (p : Kind → Bool) : s.foldCase.has i p = s.has i p := by
  simp [has]

@[simp] theorem isAt_foldCase (i : Nat) (k : Kind) : s.foldCase.isAt i k = s.isAt i k := by
  simp [isAt]

@[simp] theorem content_foldCase (i : Nat) :
    s.foldCase.content i = Text.foldCase (s.content i) := by
  rw [content, content, token?_foldCase]
  cases s.token? i <;> rfl

@[simp] theorem findFrom_foldCase (p : Kind → Bool) (n i : Nat) :
    s.foldCase.findFrom p n i = s.findFrom p n i := by
  induction n generalizing i with
  | zero => rfl
  | succ n ih => simp [findFrom, ih]

@[simp] theorem findNext_foldCase (p : Kind → Bool) (i : Nat) :
    s.foldCase.findNext p i = s.findNext p i := by
  simp [findNext]

@[simp] theorem findBelow_foldCase (p : Kind → Bool) (n : Nat) :
    s.foldCase.findBelow p n = s.findBelow p n := by
  induction n with
  | zero => rfl
  | succ n ih => simp [findBelow, ih]

@[simp] theorem nextSignificant_foldCase (i : Nat) :
    s.foldCase.nextSignificant i = s.nextSignificant i := by
  simp [nextSignificant]

@[simp] theorem previousSignificant_foldCase (i : Nat) :
    s.foldCase.previousSignificant i = s.previousSignificant i := by
  simp [previousSignificant, findBefore]

@[simp] theorem partner?_foldCase (i : Nat) : s.foldCase.partner? i = s.partner? i := by
  have hkinds : (s.tokens.map Token.foldCase).toList.map Token.kind =
      s.tokens.toList.map Token.kind := by
    simp [Function.comp_def, Token.foldCase]
  have hpartners : Pairing.partners (s.tokens.map Token.foldCase) = Pairing.partners s.tokens := by
    unfold Pairing.partners
    rw [hkinds, Array.size_map]
  rw [partner?, partner?, s.foldCase.partners_eq, s.partners_eq, foldCase, hpartners]

/-! ## Declarations and their bodies -/

@[simp] theorem declaredName?_foldCase (i : Nat) :
    s.foldCase.declaredName? i = (s.declaredName? i).map Text.foldCase := by
  unfold declaredName?
  rw [nextSignificant_foldCase]
  cases s.nextSignificant i with
  | none => rfl
  | some next =>
    simp only [Option.bind_eq_bind, Option.bind_some, content_foldCase, Text.foldCase_eq_ampersand,
      nextSignificant_foldCase, isAt_foldCase]
    by_cases hreference : s.content next = ['&']
    · rw [if_pos hreference, if_pos hreference]
      cases s.nextSignificant next with
      | none => rfl
      | some name =>
        rw [Option.bind_some, Option.bind_some]
        split <;> rfl
    · rw [if_neg hreference, if_neg hreference]
      split <;> rfl

@[simp] theorem isClosure_foldCase (i : Nat) : s.foldCase.isClosure i = s.isClosure i := by
  simp [isClosure]

@[simp] theorem isAnonymousClass_foldCase (i : Nat) :
    s.foldCase.isAnonymousClass i = s.isAnonymousClass i := by
  simp [isAnonymousClass]

@[simp] theorem isTypeDeclaration_foldCase (i : Nat) :
    s.foldCase.isTypeDeclaration i = s.isTypeDeclaration i := by
  simp [isTypeDeclaration]

@[simp] theorem bodyOpener?_foldCase (i : Nat) : s.foldCase.bodyOpener? i = s.bodyOpener? i := by
  simp [bodyOpener?, bodySearchStart?]

@[simp] theorem bodyCloser?_foldCase (i : Nat) : s.foldCase.bodyCloser? i = s.bodyCloser? i := by
  rw [bodyCloser?, bodyCloser?, bodyOpener?_foldCase, funext s.partner?_foldCase]

@[simp] theorem body?_foldCase (i : Nat) : s.foldCase.body? i = s.body? i := by
  simp [body?]

/-! ## Names -/

/-- A folded token adds its folded text to a folded name. -/
theorem namePart?_foldCase (name : Text) (t : Token) :
    namePart? (Text.foldCase name) t.foldCase = (namePart? name t).map Text.foldCase := by
  unfold namePart? Token.foldCase
  simp only [Text.all_isSegmentChar_foldCase, Text.getLast?_foldCase_eq_backslash]
  split
  · rfl
  · rfl
  · split <;> rfl

/-- The rest of a name is read folded and ends where it ended. -/
theorem nameFrom_foldCase (name : Text) (n i : Nat) :
    s.foldCase.nameFrom (Text.foldCase name) n i =
      Prod.map Text.foldCase id (s.nameFrom name n i) := by
  induction n generalizing name i with
  | zero => rfl
  | succ n ih =>
    have hpart : (s.foldCase.token? i).bind (namePart? (Text.foldCase name)) =
        ((s.token? i).bind (namePart? name)).map Text.foldCase := by
      simp only [token?_foldCase, Option.bind_map, Option.map_bind, Function.comp_def,
        namePart?_foldCase]
    rw [nameFrom, nameFrom, hpart]
    cases (s.token? i).bind (namePart? name) with
    | none => rfl
    | some part =>
      have hnext := ih (name ++ part) (i + 1)
      rwa [Text.foldCase_append] at hnext

@[simp] theorem readName?_foldCase (i : Nat) :
    s.foldCase.readName? i = (s.readName? i).map (Prod.map Text.foldCase id) := by
  have hname := s.nameFrom_foldCase [] (s.size - i) i
  rw [Text.foldCase_nil] at hname
  simp only [readName?, size_foldCase, hname, Prod.map_fst, Text.isEmpty_foldCase]
  split <;> rfl

end TokenStream

end PhpLint

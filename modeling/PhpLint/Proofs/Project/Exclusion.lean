import PhpLint.Proofs.Path.Join
import PhpLint.Proofs.Text.Cut

/-!
# What stands above a root, and exclusions

An exclusion reads the absolute path of a file, and so the names of the directories above the root as
well.  It **tells no difference** between two roots when it covers the same paths below them
(`Exclusion.SameAt`).

An exclusion `**/name/…` needs a whole component to start with.  Whether the path is read as a glob or
searched for the part without the stars, it says of a path below a root what it says of that path below
`/`, unless a component of the root has this very name (`coversText_join`).  So it tells no difference
between roots without such a component (`sameAt_of_leads`).
-/

namespace PhpLint

open FilePath (Inside IsBody bodyComponents front firstPiece afterPiece)

/-! ## Readings that start at a component -/

namespace Glob

/-- A test fails for a text whose first piece is another one than a name. -/
def NeedsPiece (name : Text) (test : Text → Bool) : Prop :=
  ∀ piece rest, '/' ∉ piece → piece ≠ name → test (piece ++ '/' :: rest) = false

/-- A test of the text behind each slash starts with the text behind the first. -/
theorem anyComponent_slash (test : Text → Bool) (t : Text) :
    anyComponent test ('/' :: t) = (test t || anyComponent test t) := by
  simp [anyComponent]

/-- A piece in front has no slash to test behind. -/
theorem anyComponent_append_slash {piece : Text} (h : '/' ∉ piece) (test : Text → Bool) (t : Text) :
    anyComponent test (piece ++ '/' :: t) = anyComponent test ('/' :: t) := by
  induction piece with
  | nil => rfl
  | cons c piece ih =>
    rw [List.mem_cons, not_or] at h
    rw [List.cons_append, anyComponent, ih h.2]
    simp [Ne.symm h.1]

/-- A piece of another name is passed over. -/
theorem anyComponent_piece {name piece : Text} {test : Text → Bool} (htest : NeedsPiece name test)
    (h : '/' ∉ piece) (hne : piece ≠ name) (t : Text) :
    anyComponent test ('/' :: (piece ++ '/' :: t)) = anyComponent test ('/' :: t) := by
  rw [anyComponent_slash, htest piece t h hne, Bool.false_or, anyComponent_append_slash h]

/-- The pieces of a base are passed over one after another. -/
theorem anyComponent_front {name base : Text} {test : Text → Bool} (htest : NeedsPiece name test)
    (hname : Component.IsName name) (h : .name name ∉ bodyComponents base) (t : Text) :
    anyComponent test ('/' :: (front base ++ t)) = anyComponent test ('/' :: t) := by
  have hfirst {base : Text} (h : .name name ∉ bodyComponents base) : firstPiece base ≠ name := by
    intro heq
    rw [FilePath.bodyComponents_eq, heq, hname.piece] at h
    exact h List.mem_cons_self
  have hrest {base : Text} (h : .name name ∉ bodyComponents base) :
      .name name ∉ bodyComponents (afterPiece base) := by
    intro hmem
    rw [FilePath.bodyComponents_eq] at h
    exact h (List.mem_append_right _ hmem)
  fun_induction FilePath.bodySteps base with
  | case1 => rfl
  | case2 base hne component hpiece ih | case3 base hne hpiece ih =>
    rw [FilePath.front_eq hne, List.append_assoc, List.cons_append,
      anyComponent_piece htest (FilePath.slash_not_mem_firstPiece base) (hfirst h)]
    exact ih (hrest h)

/-- Up to the first slash a text falls into parts in one way. -/
theorem eq_of_append_slash {piece name rest rest' : Text} (hpiece : '/' ∉ piece) (hname : '/' ∉ name)
    (h : piece ++ '/' :: rest = name ++ '/' :: rest') : piece = name := by
  rw [← FilePath.firstPiece_append_slash hpiece rest, h, FilePath.firstPiece_append_slash hname]

/-- Literals at the start of a pattern are taken off the text. -/
theorem matchesText_literals (literals : Text) (parts : List Part) (t : Text) :
    matchesText (literals.map .literal ++ parts) t =
      (Text.stripStart literals t).any (matchesText parts) := by
  induction literals generalizing t with
  | nil => rfl
  | cons d literals ih =>
    cases t with
    | nil => rfl
    | cons c t => by_cases hc : d = c <;> simp [matchesText, Part.accepts, Text.stripStart, hc, ih, Ne.symm]

/-- A pattern that starts with a name and a slash needs a piece of that name. -/
theorem needsPiece_matchesText {name : Text} (hname : '/' ∉ name) (parts : List Part) :
    NeedsPiece name (matchesText (name.map .literal ++ .literal '/' :: parts)) := by
  intro piece rest hpiece hne
  have htext : name.map Part.literal ++ .literal '/' :: parts =
      (name ++ ['/']).map Part.literal ++ parts := by simp
  rw [htext, matchesText_literals]
  cases hstrip : Text.stripStart (name ++ ['/']) (piece ++ '/' :: rest) with
  | none => rfl
  | some after =>
    have heq := Text.stripStart_eq_some_iff.1 hstrip
    rw [List.append_assoc, List.singleton_append] at heq
    exact absurd (eq_of_append_slash hpiece hname heq) hne

/-- A text that starts with a name and a slash needs a piece of that name. -/
theorem needsPiece_startsWith {name : Text} (hname : '/' ∉ name) (more : Text) :
    NeedsPiece name (Text.startsWith (name ++ '/' :: more)) := by
  intro piece rest hpiece hne
  rw [← Bool.not_eq_true, Text.startsWith_iff]
  intro hparts
  obtain ⟨after, hafter⟩ := hparts
  rw [List.append_assoc, List.cons_append] at hafter
  exact hne (eq_of_append_slash hname hpiece hafter).symm

/-- A part that starts with a slash is searched for behind each slash. -/
theorem includes_slash {part : Text} (hpart : part ≠ []) (t : Text) :
    Text.includes ('/' :: part) t = anyComponent (Text.startsWith part) t := by
  induction t with
  | nil =>
    obtain ⟨c, part, rfl⟩ := List.exists_cons_of_ne_nil hpart
    rfl
  | cons c t ih =>
    rw [Text.includes_cons, ih, anyComponent]
    by_cases hc : c = '/' <;> simp [Text.startsWith, Text.stripStart, hc, Ne.symm]

end Glob

namespace Exclusion

open Glob

variable {e : Glob} {name : Text} {R R₁ R₂ p : FilePath}

/-! ## What an exclusion says of an absolute path -/

/-- The exclusion covers an absolute path, whatever the base is. -/
def coversText (e : Glob) (t : Text) : Bool :=
  e.accepts t || isPart (withoutStars e.pattern) && Text.includes (withoutStars e.pattern) t

/-- What the exclusion says of an absolute path, and what it says of the path below the base. -/
theorem covers_eq (base : FilePath) (e : Glob) (p : FilePath) :
    covers base e p = (coversText e p.text || e.accepts (p.relativeTo base).text) := by
  unfold covers coversText
  rw [Bool.or_assoc, Bool.or_assoc, Bool.or_comm (e.accepts (p.relativeTo base).text)]

/-- The exclusion tells no difference between the files below two roots. -/
def SameAt (e : Glob) (R₁ R₂ : FilePath) : Prop :=
  ∀ p, Inside p → coversText e (R₁.join p).text = coversText e (R₂.join p).text

/-- The exclusion is two stars and then a directory of some name. -/
structure Leads (e : Glob) (name : Text) : Prop where
  named : Component.IsName name
  parts : ∃ more, e.parts = .components :: (name.map .literal ++ .literal '/' :: more)
  part : ∃ more, withoutStars e.pattern = '/' :: (name ++ '/' :: more)

/-- The exclusion of all that is in some directory of a name. -/
def everyDirectory (name : Text) : Glob :=
  ⟨"**/".toList ++ name ++ "/**".toList,
    .components :: (name.map .literal ++ .literal '/' :: [.components])⟩

/-- The name holds no character that means something in a glob. -/
def IsPlain (name : Text) : Prop := ∀ c ∈ name, c ≠ '?' ∧ c ≠ '*' ∧ c ≠ '['

instance (name : Text) : Decidable (IsPlain name) := List.decidableBAll _ name

/-- A plain name, a slash and two stars are read as they seem. -/
theorem partsFrom_plain {literals : Text} (h : IsPlain literals) (position : Nat)
    (previous : Option Char) :
    partsFrom position previous (literals ++ ['/', '*', '*']) =
      .ok (literals.map .literal ++ .literal '/' :: [.components]) := by
  induction literals generalizing position previous with
  | nil =>
    have hstars : partsFrom (position + 1) (some '/') ['*', '*'] = .ok [.components] := by
      rw [partsFrom]
      rfl
    rw [List.nil_append, partsFrom, hstars]
    · rfl
    all_goals simp
  | cons c literals ih =>
    obtain ⟨hquestion, hstar, hbracket⟩ := h c List.mem_cons_self
    rw [List.cons_append, partsFrom, ih fun d hd => h d (List.mem_cons_of_mem c hd)]
    · rfl
    all_goals simp [hquestion, hstar, hbracket]

/-- Such a pattern is a glob, with the parts that it seems to have. -/
theorem ofPattern_everyDirectory {name : Text} (h : IsPlain name) :
    ofPattern (everyDirectory name).pattern = .ok (everyDirectory name) := by
  have hparse : parse (everyDirectory name).pattern = .ok (everyDirectory name).parts := by
    have hslash := partsFrom_plain h 3 (some '/')
    have htext : (everyDirectory name).pattern = '*' :: '*' :: '/' :: (name ++ ['/', '*', '*']) := by
      simp [everyDirectory]
    unfold parse
    rw [htext, partsFrom, hslash]
    · rfl
    · simp
  unfold ofPattern
  rw [hparse]
  rfl

/-- A text without stars stays as it is when stars are left out. -/
theorem withoutStars_append {t : Text} (h : '*' ∉ t) (rest : Text) :
    withoutStars (t ++ rest) = t ++ withoutStars rest := by
  induction t with
  | nil => rfl
  | cons c t ih =>
    rw [List.mem_cons, not_or] at h
    rw [List.cons_append, withoutStars, ih h.2, List.cons_append]
    simp [Ne.symm h.1]

/-- The exclusion of all directories of a name is two stars and that name. -/
theorem leads_everyDirectory (hname : Component.IsName name) (hplain : IsPlain name) :
    Leads (everyDirectory name) name where
  named := hname
  parts := ⟨[.components], rfl⟩
  part := by
    have hstars : '*' ∉ name := fun hmem => (hplain '*' hmem).2.1 rfl
    have htext : (everyDirectory name).pattern = '*' :: '*' :: (('/' :: name) ++ ['/', '*', '*']) := by
      simp [everyDirectory]
    refine ⟨[], ?_⟩
    rw [htext, withoutStars, withoutStars_append (by simp [hstars])]
    rfl

/-- A root without a directory of the name is passed over. -/
theorem coversText_join (he : Leads e name) (hR : R.isAbsolute = true)
    (hname : .name name ∉ R.components) (hp : Inside p) :
    coversText e (R.join p).text = coversText e ('/' :: p.text) := by
  obtain ⟨base, htext, hcomponents⟩ := FilePath.components_of_isAbsolute hR
  have hbase : .name name ∉ bodyComponents base := by
    rw [hcomponents] at hname
    exact fun hmem => hname (List.mem_cons_of_mem _ hmem)
  have hjoin : (R.join p).text = '/' :: (front base ++ p.text) := by
    rw [FilePath.join_eq hp.body.isAbsolute_eq_false, htext, FilePath.front_slash, List.cons_append]
  obtain ⟨parts, hparts⟩ := he.parts
  obtain ⟨more, hmore⟩ := he.part
  have hslash := he.named.one
  have haccepts : e.accepts (R.join p).text = e.accepts ('/' :: p.text) := by
    have htest := needsPiece_matchesText hslash parts
    have hroot (t : Text) :
        matchesText (name.map .literal ++ .literal '/' :: parts) ('/' :: t) = false :=
      htest [] t List.not_mem_nil (FilePath.ne_nil_of_isName he.named).symm
    unfold accepts
    rw [hparts, hjoin, matchesText, matchesText, hroot, hroot, anyComponent_front htest he.named hbase]
  have hincludes : Text.includes (withoutStars e.pattern) (R.join p).text =
      Text.includes (withoutStars e.pattern) ('/' :: p.text) := by
    have hne : name ++ '/' :: more ≠ [] := by simp
    rw [hmore, hjoin, includes_slash hne, includes_slash hne,
      anyComponent_front (needsPiece_startsWith hslash more) he.named hbase]
  unfold coversText
  rw [haccepts, hincludes]

/-- An exclusion of all directories of a name tells no difference between roots that have no component
of that name. -/
theorem sameAt_of_leads (he : Leads e name) (habsolute₁ : R₁.isAbsolute = true)
    (habsolute₂ : R₂.isAbsolute = true) (hname₁ : .name name ∉ R₁.components)
    (hname₂ : .name name ∉ R₂.components) : SameAt e R₁ R₂ := fun _ hp =>
  (coversText_join he habsolute₁ hname₁ hp).trans (coversText_join he habsolute₂ hname₂ hp).symm

end Exclusion

end PhpLint

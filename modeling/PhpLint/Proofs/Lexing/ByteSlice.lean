import PhpLint.Text

/-!
# Texts between byte offsets

Offsets count bytes while a text is a list of code points, so an offset names a place in a text only
where a character starts or the text ends.  `splitBytes?` cuts a text there and answers nothing
inside of a character; `slice?` is the piece between two such places.

`splitBytes?_eq_some_iff` and `slice?_eq_some_iff` say that both answer exactly what they are named
for: the parts put together are the text, and the bytes in front are as many as the offset says.
-/

namespace PhpLint.Text

/-- The text before and after a byte offset, if a character starts or the text ends there. -/
def splitBytes? : Nat → Text → Option (Text × Text)
  | 0, t => some ([], t)
  | _ + 1, [] => none
  | n + 1, c :: t =>
    if c.utf8Size ≤ n + 1 then
      (splitBytes? (n + 1 - c.utf8Size) t).map fun parts => (c :: parts.1, parts.2)
    else none

/-- The text from one byte offset to another, if both lie between characters. -/
def slice? (first last : Nat) (t : Text) : Option Text :=
  (splitBytes? last t).bind fun parts => (splitBytes? first parts.1).map Prod.snd

/-- Only the empty text has no bytes. -/
theorem utf8Length_eq_zero_iff {t : Text} : utf8Length t = 0 ↔ t = [] := by
  cases t with
  | nil => simp
  | cons c t =>
    have hpos := c.utf8Size_pos
    simp
    omega

/-- Cutting at an offset finds the one way to part the text with that many bytes in front. -/
theorem splitBytes?_eq_some_iff {n : Nat} {t before after : Text} :
    splitBytes? n t = some (before, after) ↔ t = before ++ after ∧ utf8Length before = n := by
  fun_induction splitBytes? n t generalizing before with
  | case1 t =>
    rw [utf8Length_eq_zero_iff]
    constructor
    · intro h
      obtain ⟨rfl, rfl⟩ := Prod.mk.inj (Option.some.inj h)
      exact ⟨rfl, rfl⟩
    · rintro ⟨rfl, rfl⟩
      rfl
  | case2 n =>
    simp only [reduceCtorEq, false_iff, not_and]
    intro h
    obtain ⟨rfl, rfl⟩ := List.append_eq_nil_iff.1 h.symm
    simp
  | case3 n c t hfits ih =>
    rw [Option.map_eq_some_iff]
    constructor
    · rintro ⟨⟨front, back⟩, hparts, heq⟩
      obtain ⟨rfl, rfl⟩ := Prod.mk.inj heq
      obtain ⟨rfl, hlength⟩ := ih.1 hparts
      exact ⟨rfl, by simp; omega⟩
    · rintro ⟨htext, hlength⟩
      cases before with
      | nil => simp at hlength
      | cons d front =>
        obtain ⟨rfl, rfl⟩ := List.cons.inj htext
        refine ⟨(front, after), ih.2 ⟨rfl, ?_⟩, rfl⟩
        simp at hlength
        omega
  | case4 n c t hlong =>
    simp only [reduceCtorEq, false_iff, not_and]
    intro htext hlength
    cases before with
    | nil => simp at hlength
    | cons d front =>
      obtain ⟨rfl, -⟩ := List.cons.inj htext
      simp at hlength
      omega

/-- A slice is the one piece of the text that starts and ends at the two offsets. -/
theorem slice?_eq_some_iff {first last : Nat} {t piece : Text} :
    slice? first last t = some piece ↔
      ∃ before after, t = before ++ piece ++ after ∧
        utf8Length before = first ∧ first + utf8Length piece = last := by
  simp only [slice?, Option.bind_eq_some_iff, Option.map_eq_some_iff, Prod.exists]
  constructor
  · rintro ⟨front, after, hlast, before, piece', hfirst, rfl⟩
    obtain ⟨rfl, rfl⟩ := splitBytes?_eq_some_iff.1 hlast
    obtain ⟨rfl, rfl⟩ := splitBytes?_eq_some_iff.1 hfirst
    exact ⟨before, after, rfl, rfl, by simp⟩
  · rintro ⟨before, after, rfl, rfl, rfl⟩
    have hlast : splitBytes? (utf8Length before + utf8Length piece) (before ++ piece ++ after) =
        some (before ++ piece, after) := splitBytes?_eq_some_iff.2 ⟨rfl, by simp⟩
    exact ⟨_, after, hlast, before, piece, splitBytes?_eq_some_iff.2 ⟨rfl, rfl⟩, rfl⟩

end PhpLint.Text

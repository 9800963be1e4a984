import Mathlib.Data.List.DropRight
import Mathlib.Data.List.Infix
import PhpLint.Text

/-!
# Cutting and trimming

A text is cut at the first occurrence of a pattern (`cut_of_first`, `le_of_cut`).  Behind characters
that do not occur in the pattern, the first occurrence is the next one if the text before those
characters holds none (`le_of_separated`).

To trim a text takes off the characters of a class and no others; what stands behind a character
that is not in the class does not matter to what stands before it.
-/

namespace PhpLint.Text

variable {pattern t before after : Text} {p : Char → Bool}

/-! ## Cutting -/

/-- A text is cut at the first occurrence of a pattern. -/
theorem cut_of_first (hpattern : pattern ≠ [])
    (hfirst : ∀ b a, before ++ pattern ++ after = b ++ pattern ++ a → before.length ≤ b.length) :
    cut pattern (before ++ pattern ++ after) = some (before, after) := by
  induction before with
  | nil =>
    rw [List.nil_append]
    obtain ⟨c, rest, rfl⟩ := List.exists_cons_of_ne_nil hpattern
    have hstrip : stripStart (c :: rest) (c :: rest ++ after) = some after :=
      stripStart_eq_some_iff.2 rfl
    rw [List.cons_append] at hstrip ⊢
    rw [cut, hstrip]
  | cons c before ih =>
    have hstrip : stripStart pattern (c :: before ++ pattern ++ after) = none := by
      cases h : stripStart pattern (c :: before ++ pattern ++ after) with
      | none => rfl
      | some rest =>
        have hle := hfirst [] rest (stripStart_eq_some_iff.1 h)
        simp at hle
    have hrest : cut pattern (before ++ pattern ++ after) = some (before, after) := by
      refine ih fun b a heq => ?_
      have hle := hfirst (c :: b) a (by simpa using heq)
      simpa using hle
    rw [List.cons_append, List.cons_append] at hstrip ⊢
    rw [cut, hstrip]
    simp only [hrest, Option.map_some]

/-- A pattern occurs in a text when it stands in front or occurs behind the first character. -/
theorem includes_cons (pattern : Text) (c : Char) (t : Text) :
    includes pattern (c :: t) = (startsWith pattern (c :: t) || includes pattern t) := by
  rw [includes, cut, startsWith]
  cases stripStart pattern (c :: t) with
  | some after => rfl
  | none => simp [includes]

/-- No occurrence of a pattern stands before the cut. -/
theorem le_of_cut (h : cut pattern t = some (before, after)) :
    ∀ b a, t = b ++ pattern ++ a → before.length ≤ b.length := by
  induction t generalizing before with
  | nil =>
    intro b a ht
    simp only [cut] at h
    split at h
    · obtain ⟨rfl, -⟩ := Prod.mk.inj (Option.some.inj h)
      exact Nat.zero_le _
    · cases h
  | cons c rest ih =>
    intro b a ht
    simp only [cut] at h
    split at h
    · obtain ⟨rfl, -⟩ := Prod.mk.inj (Option.some.inj h)
      exact Nat.zero_le _
    · next hstrip =>
      obtain ⟨⟨before, after⟩, hcut, heq⟩ := Option.map_eq_some_iff.1 h
      obtain ⟨rfl, rfl⟩ := Prod.mk.inj heq
      cases b with
      | nil =>
        rw [stripStart_eq_some_iff.2 (by simpa using ht)] at hstrip
        cases hstrip
      | cons d b =>
        have hrest : rest = b ++ pattern ++ a := by simpa using (List.cons.inj ht).2
        simpa using ih hcut b a hrest

/-- Cutting at a character finds the first place where it stands. -/
theorem cut_singleton_iff {c : Char} :
    cut [c] t = some (before, after) ↔ t = before ++ c :: after ∧ c ∉ before := by
  constructor
  · intro h
    have htext := cut_eq_some_append h
    refine ⟨by simpa using htext, fun hmem => ?_⟩
    obtain ⟨b, a, rfl⟩ := List.append_of_mem hmem
    have hle := le_of_cut h b (a ++ [c] ++ after) (by simpa using htext)
    rw [List.length_append, List.length_cons] at hle
    omega
  · intro ⟨htext, hfree⟩
    have hcut : cut [c] (before ++ [c] ++ after) = some (before, after) := by
      refine cut_of_first (List.cons_ne_nil c []) fun b a heq => ?_
      by_contra hlt
      have hget := congrArg (·[b.length]?) heq
      simp only [List.append_assoc] at hget
      rw [List.getElem?_append_left (by omega), List.getElem?_append_right (Nat.le_refl _),
        Nat.sub_self] at hget
      exact hfree (List.mem_of_getElem? hget)
    simpa [htext] using hcut

/-- Behind characters that the pattern does not hold, the next occurrence is the first one unless
the text before holds one. -/
theorem le_of_separated {middle : Text} (hmiddle : middle ≠ []) (hpattern : pattern ≠ [])
    (hseparated : ∀ c ∈ middle, c ∉ pattern) (hbefore : ¬pattern <:+: before) (after : Text) :
    ∀ b a, before ++ middle ++ pattern ++ after = b ++ pattern ++ a →
      (before ++ middle).length ≤ b.length := by
  intro b a heq
  by_contra hlt
  rw [List.append_assoc _ pattern, List.append_assoc b] at heq
  obtain ⟨y, hy, hrest⟩ | ⟨y, hy, hrest⟩ := List.append_eq_append_iff.1 heq
  · simp [hy] at hlt
  obtain ⟨z, rfl, hz⟩ | ⟨z, rfl, hz⟩ := List.append_eq_append_iff.1 hy
  · -- The other occurrence would start among the characters between.
    cases y with
    | nil => simp [hz] at hlt
    | cons d y =>
      obtain ⟨e, pattern, rfl⟩ := List.exists_cons_of_ne_nil hpattern
      obtain rfl := (List.cons.inj hrest).1
      exact hseparated e (by simp [hz]) List.mem_cons_self
  · -- It would start before them, and lie before them or hold the first of them.
    rw [hz, List.append_assoc] at hrest
    obtain ⟨w, rfl, -⟩ | ⟨w, hw, hrest⟩ := List.append_eq_append_iff.1 hrest
    · exact hbefore ⟨b, w, by simp⟩
    · cases w with
      | nil => exact hbefore ⟨b, [], by simp [hw]⟩
      | cons d w =>
        obtain ⟨e, middle, rfl⟩ := List.exists_cons_of_ne_nil hmiddle
        obtain rfl := (List.cons.inj hrest).1
        exact hseparated e List.mem_cons_self (by simp [hw])

/-! ## Runs and trimming -/

/-- A run of a class holds no character that is not of the class. -/
theorem notMem_takeWhile {c : Char} (hc : p c = false) (t : Text) : c ∉ t.takeWhile p := by
  intro hmem
  rw [List.mem_takeWhile_imp hmem] at hc
  cases hc

/-- What is trimmed off the end is of the class. -/
theorem exists_trimEndOf_append (p : Char → Bool) (t : Text) :
    ∃ tail, t = trimEndOf p t ++ tail ∧ ∀ c ∈ tail, p c = true :=
  ⟨t.rtakeWhile p, List.rdropWhile_append_rtakeWhile.symm,
    fun _ hc => List.mem_rtakeWhile_imp hc⟩

/-- What is trimmed off the front is of the class. -/
theorem exists_append_trimStartOf (p : Char → Bool) (t : Text) :
    ∃ front, t = front ++ trimStartOf p t ∧ ∀ c ∈ front, p c = true :=
  ⟨t.takeWhile p, List.takeWhile_append_dropWhile.symm, fun _ hc => List.mem_takeWhile_imp hc⟩

/-- What is left of the front is not of the class. -/
theorem eq_false_of_mem_head?_trimStartOf {c : Char} (h : c ∈ (trimStartOf p t).head?) :
    p c = false := by
  have hhead := List.head?_dropWhile_not p t
  rw [trimStartOf] at h
  rw [h] at hhead
  simpa using hhead

/-- Behind a character that is not of the class, the end is trimmed by itself. -/
theorem trimEndOf_append_cons {c : Char} (hc : p c = false) (s t : Text) :
    trimEndOf p (s ++ c :: t) = s ++ c :: trimEndOf p t := by
  have hstop : (c :: s.reverse).dropWhile p = c :: s.reverse := by simp [hc]
  have hreverse : (s ++ c :: t).reverse = t.reverse ++ c :: s.reverse := by simp
  have hdrop : (t.reverse ++ c :: s.reverse).dropWhile p =
      t.reverse.dropWhile p ++ c :: s.reverse := by
    rw [List.dropWhile_append, hstop]
    split
    · next h => rw [List.isEmpty_iff.1 h, List.nil_append]
    · rfl
  rw [trimEndOf, hreverse, hdrop]
  simp [trimEndOf]

/-- Characters of the class at the end are trimmed. -/
theorem trimEndOf_append_of_all {tail : Text} (h : ∀ c ∈ tail, p c = true) (t : Text) :
    trimEndOf p (t ++ tail) = trimEndOf p t := by
  rw [trimEndOf, List.reverse_append, List.dropWhile_append_of_pos (by simpa using h)]
  rfl

/-- Characters of the class in front are trimmed. -/
theorem trimStartOf_append_of_all {front : Text} (h : ∀ c ∈ front, p c = true) (t : Text) :
    trimStartOf p (front ++ t) = trimStartOf p t :=
  List.dropWhile_append_of_pos h

/-- In front of a character that is not of the class nothing is trimmed. -/
theorem trimStartOf_cons {c : Char} (hc : p c = false) (t : Text) :
    trimStartOf p (c :: t) = c :: t := by
  simp [trimStartOf, hc]

/-- White space around a text does not count when the text is trimmed. -/
theorem trim_append_of_all {front back : Text} (hfront : ∀ c ∈ front, Unicode.isSpace c = true)
    (hback : ∀ c ∈ back, Unicode.isSpace c = true) (t : Text) :
    trim (front ++ t ++ back) = trim t := by
  have hstart : trimStartOf Unicode.isSpace (front ++ t ++ back) =
      trimStartOf Unicode.isSpace (t ++ back) := by
    rw [List.append_assoc]
    exact trimStartOf_append_of_all hfront (t ++ back)
  rw [trim, trim, hstart]
  unfold trimStartOf
  rw [List.dropWhile_append]
  split
  case isTrue hempty =>
    -- There is nothing but white space.
    have hnone : back.dropWhile Unicode.isSpace = [] := List.dropWhile_eq_nil_iff.2 hback
    rw [List.isEmpty_iff.1 hempty, hnone]
  case isFalse =>
    exact trimEndOf_append_of_all hback _

end PhpLint.Text

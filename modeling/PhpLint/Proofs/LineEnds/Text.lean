import Mathlib.Data.List.TakeDrop
import PhpLint.Position
import PhpLint.Proofs.Text.Cut
import PhpLint.Proofs.Text.Letters

/-!
# Texts with returns

A text has two forms: lines that end in a line feed, and the same lines with a carriage return before
each line feed.  A **cut** in the one form has a counterpart in the other, the one that leaves the two
forms of the same text on either side (`SameCut`), and it lies as many characters from the front when
no line feed comes before it.

The lines of the two forms are the same, and so are the line and the column past them.

A text that holds a blank, a line feed or the mark of a closing tag is **no word**.  Of some tokens the
texts in the two forms differ, but then both are no words (`SameWord`).
-/

namespace PhpLint

namespace Text

/-- The text with a carriage return before each line feed. -/
def withReturns : Text → Text
  | [] => []
  | c :: t => if c = '\n' then '\r' :: '\n' :: withReturns t else c :: withReturns t

@[simp] theorem withReturns_nil : withReturns [] = [] := rfl

@[simp] theorem withReturns_feed (t : Text) :
    withReturns ('\n' :: t) = '\r' :: '\n' :: withReturns t := by
  simp [withReturns]

/-- A character that is no line feed stays as it is. -/
theorem withReturns_cons {c : Char} (h : c ≠ '\n') (t : Text) :
    withReturns (c :: t) = c :: withReturns t := by
  rw [withReturns, if_neg h]

@[simp] theorem withReturns_append (s t : Text) :
    withReturns (s ++ t) = withReturns s ++ withReturns t := by
  induction s with
  | nil => rfl
  | cons c s ih =>
    by_cases hc : c = '\n'
    · subst hc
      simp [ih]
    · rw [List.cons_append, withReturns_cons hc, withReturns_cons hc, ih, List.cons_append]

@[simp] theorem withReturns_eq_nil_iff {t : Text} : withReturns t = [] ↔ t = [] := by
  cases t with
  | nil => simp
  | cons c t =>
    by_cases hc : c = '\n'
    · subst hc
      simp
    · simp [withReturns_cons hc]

/-- A text without line feeds has one form. -/
theorem withReturns_of_not_mem {t : Text} (h : '\n' ∉ t) : withReturns t = t := by
  induction t with
  | nil => rfl
  | cons c t ih =>
    rw [List.mem_cons, not_or] at h
    rw [withReturns_cons (Ne.symm h.1), ih h.2]

theorem feed_mem_withReturns {t : Text} (h : '\n' ∈ t) : '\n' ∈ withReturns t := by
  obtain ⟨before, after, rfl⟩ := List.append_of_mem h
  simp

/-! ## The front of a text -/

/-- The next character answers a question that takes a return for a line feed. -/
theorem any_head?_withReturns {p : Char → Bool} (h : p '\r' = p '\n') (t : Text) :
    (withReturns t).head?.any p = t.head?.any p := by
  cases t with
  | nil => rfl
  | cons c t =>
    by_cases hc : c = '\n'
    · subst hc
      simpa using h
    · rw [withReturns_cons hc]
      rfl

/-- A character that is no line end stands in front of both forms or of none. -/
theorem head?_withReturns_eq_some_iff {c : Char} (hfeed : c ≠ '\n') (hreturn : c ≠ '\r')
    (t : Text) : (withReturns t).head? = some c ↔ t.head? = some c := by
  have hany := any_head?_withReturns (p := (· == c))
    (by rw [beq_false_of_ne hfeed.symm, beq_false_of_ne hreturn.symm]) t
  rw [Bool.eq_iff_iff, Option.any_eq_true, Option.any_eq_true] at hany
  simpa using hany

/-- A run of characters other than line ends is the same in both forms. -/
theorem takeWhile_withReturns {p : Char → Bool} (hfeed : p '\n' = false) (hreturn : p '\r' = false)
    (t : Text) : (withReturns t).takeWhile p = t.takeWhile p := by
  induction t with
  | nil => rfl
  | cons c t ih =>
    by_cases hc : c = '\n'
    · subst hc
      simp [hfeed, hreturn]
    · rw [withReturns_cons hc, List.takeWhile_cons, List.takeWhile_cons, ih]

/-- Of a run of characters that line ends belong to, each form has its own. -/
theorem takeWhile_withReturns_of_ends {p : Char → Bool} (hfeed : p '\n' = true)
    (hreturn : p '\r' = true) (t : Text) :
    (withReturns t).takeWhile p = withReturns (t.takeWhile p) := by
  induction t with
  | nil => rfl
  | cons c t ih =>
    by_cases hc : c = '\n'
    · subst hc
      simp [hfeed, hreturn, ih]
    · rw [withReturns_cons hc, List.takeWhile_cons, List.takeWhile_cons]
      cases p c with
      | true => rw [if_pos rfl, if_pos rfl, ih, withReturns_cons hc]
      | false => rfl

/-- As many characters as a run without line feeds has hold no line feed. -/
theorem feed_notMem_take_takeWhile {p : Char → Bool} (hfeed : p '\n' = false) (t : Text) :
    '\n' ∉ t.take (t.takeWhile p).length := by
  rw [← List.prefix_iff_eq_take.1 (List.takeWhile_prefix p)]
  exact notMem_takeWhile hfeed t

/-- Text without line ends stands at the front of both forms or of none. -/
theorem stripStart_withReturns {start : Text} (hfeed : '\n' ∉ start) (hreturn : '\r' ∉ start)
    (t : Text) : stripStart start (withReturns t) = (stripStart start t).map withReturns := by
  induction start generalizing t with
  | nil => rfl
  | cons d start ih =>
    rw [List.mem_cons, not_or] at hfeed hreturn
    cases t with
    | nil => rfl
    | cons c t =>
      by_cases hc : c = '\n'
      · subst hc
        simp [stripStart, Ne.symm hfeed.1, Ne.symm hreturn.1]
      · rw [withReturns_cons hc, stripStart, stripStart]
        by_cases hd : d = c
        · rw [if_pos hd, if_pos hd, ih hfeed.2 hreturn.2]
        · rw [if_neg hd, if_neg hd]
          rfl

/-- A start without line ends is one of both forms or of none. -/
theorem startsWith_withReturns {start : Text} (hfeed : '\n' ∉ start) (hreturn : '\r' ∉ start)
    (t : Text) : startsWith start (withReturns t) = startsWith start t := by
  rw [startsWith, startsWith, stripStart_withReturns hfeed hreturn, Option.isSome_map]

/-- Text without line ends occurs in both forms or in none. -/
theorem includes_withReturns {pattern : Text} (hfeed : '\n' ∉ pattern) (hreturn : '\r' ∉ pattern)
    (hne : pattern ≠ []) (t : Text) : includes pattern (withReturns t) = includes pattern t := by
  have hhead (c : Char) (hc : c ∉ pattern) (t : Text) : startsWith pattern (c :: t) = false := by
    cases pattern with
    | nil => exact absurd rfl hne
    | cons d pattern =>
      rw [List.mem_cons, not_or] at hc
      simp [startsWith, stripStart, Ne.symm hc.1]
  induction t with
  | nil => rfl
  | cons c t ih =>
    by_cases hc : c = '\n'
    · subst hc
      rw [withReturns_feed, includes_cons, includes_cons, includes_cons, hhead _ hreturn,
        hhead _ hfeed, hhead _ hfeed, ih]
      rfl
    · have hstart := startsWith_withReturns hfeed hreturn (c :: t)
      rw [withReturns_cons hc] at hstart
      rw [withReturns_cons hc, includes_cons, includes_cons, hstart, ih]

/-- A line feed among the first characters stands behind a return there in the other form. -/
theorem return_mem_take {t : Text} {n : Nat} (h : '\n' ∈ t.take n) :
    '\r' ∈ (withReturns t).take n := by
  induction t generalizing n with
  | nil => simp at h
  | cons c t ih =>
    cases n with
    | zero => simp at h
    | succ n =>
      by_cases hc : c = '\n'
      · subst hc
        simp
      · rw [List.take_succ_cons, List.mem_cons] at h
        rw [withReturns_cons hc, List.take_succ_cons]
        exact List.mem_cons_of_mem c (ih (h.resolve_left (Ne.symm hc)))

/-! ## Cuts -/

/-- A cut of a text and one of its form with returns leave the same text on either side. -/
structure SameCut (t : Text) (n n' : Nat) : Prop where
  take : (withReturns t).take n' = withReturns (t.take n)
  drop : (withReturns t).drop n' = withReturns (t.drop n)

namespace SameCut

variable {t : Text} {n n' m m' : Nat}

theorem zero (t : Text) : SameCut t 0 0 := ⟨rfl, rfl⟩

/-- In front of a cut a line feed counts once in the one form and twice in the other. -/
theorem feed (h : SameCut t n n') : SameCut ('\n' :: t) (n + 1) (n' + 2) :=
  ⟨by simp [h.take], by simp [h.drop]⟩

/-- In front of a cut any other character counts once in both. -/
theorem cons {c : Char} (hc : c ≠ '\n') (h : SameCut t n n') :
    SameCut (c :: t) (n + 1) (n' + 1) := by
  constructor
  · rw [withReturns_cons hc, List.take_succ_cons, List.take_succ_cons, withReturns_cons hc, h.take]
  · rw [withReturns_cons hc, List.drop_succ_cons, List.drop_succ_cons, h.drop]

/-- A character that is no line feed may be taken off the front of a cut. -/
theorem of_cons {c : Char} (hc : c ≠ '\n') (h : SameCut (c :: t) (n + 1) (n' + 1)) :
    SameCut t n n' := by
  obtain ⟨htake, hdrop⟩ := h
  rw [withReturns_cons hc] at htake hdrop
  rw [List.take_succ_cons, List.take_succ_cons, withReturns_cons hc] at htake
  exact ⟨(List.cons.inj htake).2, hdrop⟩

/-- Without a line feed in front of it, a cut is its own counterpart. -/
theorem of_not_mem (h : '\n' ∉ t.take n) : SameCut t n n := by
  induction t generalizing n with
  | nil => exact ⟨by simp, by simp⟩
  | cons c t ih =>
    cases n with
    | zero => exact zero _
    | succ n =>
      rw [List.take_succ_cons, List.mem_cons, not_or] at h
      exact (ih h.2).cons (Ne.symm h.1)

theorem of_front {u v : Text} (h : '\n' ∉ u) : SameCut (u ++ v) u.length u.length :=
  of_not_mem (by rwa [List.take_left])

/-- A run without line feeds ends at a cut. -/
theorem of_takeWhile {p : Char → Bool} (hfeed : p '\n' = false) (t : Text) :
    SameCut t (t.takeWhile p).length (t.takeWhile p).length := by
  have hparts := List.takeWhile_append_dropWhile (p := p) (l := t)
  have hcut := of_front (v := t.dropWhile p) (notMem_takeWhile hfeed t)
  rwa [hparts] at hcut

/-- One cut behind another. -/
theorem add (h : SameCut t n n') (h' : SameCut (t.drop n) m m') : SameCut t (n + m) (n' + m') := by
  constructor
  · rw [List.take_add, List.take_add, h.take, h.drop, h'.take, withReturns_append]
  · rw [← List.drop_drop, ← List.drop_drop, h.drop, h'.drop]

end SameCut

/-- The first characters spell a word in both forms or in none. -/
theorem foldCase_take_withReturns {word : Text} (hfeed : '\n' ∉ word) (hreturn : '\r' ∉ word)
    (t : Text) (n : Nat) : foldCase ((withReturns t).take n) = word ↔ foldCase (t.take n) = word := by
  by_cases h : '\n' ∈ t.take n
  · constructor
    · rintro rfl
      exact absurd (List.mem_map_of_mem (return_mem_take h)) hreturn
    · rintro rfl
      exact absurd (List.mem_map_of_mem h) hfeed
  · rw [(SameCut.of_not_mem h).take, withReturns_of_not_mem h]

/-- What spells a word without a line feed holds none. -/
theorem feed_notMem_of_foldCase {t word : Text} (h : foldCase t = word) (hword : '\n' ∉ word) :
    '\n' ∉ t := by
  rintro hmem
  rw [← h] at hword
  exact hword (List.mem_map_of_mem hmem)

/-! ## Lines -/

theorem dropReturn_append (t : Text) : dropReturn (t ++ ['\r']) = t := by
  simp [dropReturn]

/-- A text without returns stays as it is. -/
theorem dropReturn_of_not_mem {t : Text} (h : '\r' ∉ t) : dropReturn t = t := by
  rw [dropReturn, if_neg]
  intro hlast
  exact h (List.mem_of_getLast? hlast)

/-- Every piece but the last one gets the return of the line feed behind it. -/
theorem splitOn_withReturns (t : Text) :
    splitOn '\n' (withReturns t) =
      (splitOn '\n' t).dropLast.map (· ++ ['\r']) ++ [(splitOn '\n' t).getLast?.getD []] := by
  induction t with
  | nil => rfl
  | cons c t ih =>
    cases hpieces : splitOn '\n' t with
    | nil => exact absurd hpieces (splitOn_ne_nil '\n' t)
    | cons piece pieces =>
      rw [hpieces] at ih
      by_cases hc : c = '\n'
      · subst hc
        simp [splitOn, ih, hpieces]
      · rw [withReturns_cons hc, splitOn, splitOn, if_neg hc, if_neg hc, hpieces, ih]
        cases pieces with
        | nil => rfl
        | cons next pieces => rfl

/-- The pieces of a text hold only what the text holds. -/
theorem not_mem_of_mem_splitOn {separator c : Char} {t piece : Text} (hc : c ∉ t)
    (h : piece ∈ splitOn separator t) : c ∉ piece := by
  induction t generalizing piece with
  | nil =>
    obtain rfl := List.mem_singleton.1 h
    exact List.not_mem_nil
  | cons d t ih =>
    rw [List.mem_cons, not_or] at hc
    rw [splitOn] at h
    by_cases hd : d = separator
    · rw [if_pos hd] at h
      rcases List.mem_cons.1 h with rfl | h
      · exact List.not_mem_nil
      · exact ih hc.2 h
    · rw [if_neg hd] at h
      cases hpieces : splitOn separator t with
      | nil => exact absurd hpieces (splitOn_ne_nil separator t)
      | cons first pieces =>
        rw [hpieces] at h ih
        rcases List.mem_cons.1 h with rfl | h
        · rw [List.mem_cons, not_or]
          exact ⟨hc.1, ih hc.2 List.mem_cons_self⟩
        · exact ih hc.2 (List.mem_cons_of_mem first h)

/-- Both forms of a text have the same lines. -/
theorem lines_withReturns {t : Text} (h : '\r' ∉ t) : lines (withReturns t) = lines t := by
  have hpiece : ∀ piece ∈ (splitOn '\n' t).dropLast, dropReturn piece = piece := by
    intro piece hpiece
    exact dropReturn_of_not_mem (not_mem_of_mem_splitOn h ((List.dropLast_sublist _).mem hpiece))
  have hplain : (splitOn '\n' t).dropLast.map dropReturn = (splitOn '\n' t).dropLast :=
    (List.map_congr_left hpiece).trans (List.map_id _)
  unfold lines
  simp only [splitOn_withReturns, List.dropLast_concat, List.map_map, Function.comp_def,
    dropReturn_append, List.getLast?_append, List.getLast?_singleton, Option.some_or,
    Option.getD_some, List.map_id', hplain]

end Text

/-! ## Positions -/

namespace Position

/-- Positions on one line and in one column. -/
structure SamePlace (p q : Position) : Prop where
  line : p.line = q.line
  column : p.column = q.column

/-- Behind a text and its other form a position is at the same place. -/
theorem SamePlace.past {p q : Position} (h : SamePlace p q) (t : Text) :
    SamePlace (p.past (Text.withReturns t)) (q.past t) := by
  induction t generalizing p q with
  | nil => exact h
  | cons c t ih =>
    by_cases hc : c = '\n'
    · subst hc
      rw [Text.withReturns_feed]
      refine ih ⟨?_, ?_⟩
      · simp [next, h.line]
      · simp [next]
    · rw [Text.withReturns_cons hc]
      refine ih ⟨?_, ?_⟩
      · simp [next, hc, h.line]
      · simp [next, hc, h.column]

end Position

/-! ## Texts that are no words -/

/-- A character that is part of no word: what blanks, line ends and closing tags start with. -/
def isOutsideWords (c : Char) : Bool := isBlank c || c == '\n' || c == '?'

theorem isOutsideWords_toLower (c : Char) : isOutsideWords c.toLower = isOutsideWords c :=
  congrFun (comp_toLower (f := isOutsideWords) (by decide)) c

namespace Text

/-- The text holds a character that is part of no word. -/
def isNoWord (t : Text) : Bool := t.any isOutsideWords

/-- The same text, or two texts that are no words. -/
def SameWord (t t' : Text) : Prop := t' = t ∨ isNoWord t = true ∧ isNoWord t' = true

/-- A text is no word when one of its parts is none. -/
theorem isNoWord_append (s t : Text) : isNoWord (s ++ t) = (isNoWord s || isNoWord t) :=
  List.any_append

theorem isNoWord_of_feed {t : Text} (h : '\n' ∈ t) : isNoWord t = true :=
  List.any_eq_true.2 ⟨'\n', h, rfl⟩

theorem isNoWord_foldCase (t : Text) : isNoWord (foldCase t) = isNoWord t := by
  simp only [isNoWord, foldCase, List.any_map, Function.comp_def, isOutsideWords_toLower]

/-- What is no word is the same as no word in any case. -/
theorem sameLetters_of_isNoWord {t word : Text} (ht : isNoWord t = true)
    (hword : isNoWord word = false) : sameLetters t word = false := by
  by_contra hsame
  have hfold := sameLetters_iff.1 (eq_true_of_ne_false hsame)
  rw [← isNoWord_foldCase, hfold, isNoWord_foldCase, hword] at ht
  cases ht

/-- Two such texts are both a given word or neither is. -/
theorem SameWord.eq_iff {t t' word : Text} (h : SameWord t t') (hword : isNoWord word = false) :
    t' = word ↔ t = word := by
  rcases h with rfl | ⟨hnone, hnone'⟩
  · rfl
  · constructor
    · intro heq
      rw [heq, hword] at hnone'
      cases hnone'
    · intro heq
      rw [heq, hword] at hnone
      cases hnone

/-- Two such texts are both a given word, in any case, or neither is. -/
theorem SameWord.sameLetters {t t' word : Text} (h : SameWord t t') (hword : isNoWord word = false) :
    sameLetters t' word = sameLetters t word := by
  rcases h with rfl | ⟨hnone, hnone'⟩
  · rfl
  · rw [sameLetters_of_isNoWord hnone hword, sameLetters_of_isNoWord hnone' hword]

end Text

end PhpLint

import Mathlib.Data.List.TakeWhile
import PhpLint.Lexeme.Scan
import PhpLint.Proofs.Lexing.Parts

/-!
# In front of a stop

The question mark of a closing tag, and a character that starts a comment, a string or a heredoc, belong
to no name, to no number and to no run of white space.  A reader that looks for the end of one of these
finds it before such a **stop**, and what it answers is what it answers for the text before it, whatever
comes behind.

The search for the end of a comment may go past a stop; when it does not, it too looks at no more than
the text before.  A line comment ends at a closing tag.
-/

namespace PhpLint

/-- The question mark, and the characters that start a comment, a string or a heredoc. -/
def stops : List Char := ['?', '/', '<', '\'', '"', Char.ofNat 0x60]

/-- A character that belongs to no name, to no number and to no run of white space. -/
abbrev IsStop (m : Char) : Prop := m ∈ stops

namespace IsStop

variable {m : Char}

/-- A class that holds no stop does not hold this one. -/
theorem eq_false (hm : IsStop m) {p : Char → Bool} (hp : stops.any p = false) : p m = false :=
  Bool.eq_false_iff.2 (List.any_eq_false.1 hp m hm)

/-- A stop is none of the characters that are no stops. -/
theorem ne (hm : IsStop m) {c : Char} (hc : c ∉ stops) : m ≠ c := fun h => hc (h ▸ hm)

/-- A text without any stop does not hold this one. -/
theorem notMem (hm : IsStop m) {t : Text} (ht : stops.any (t.contains ·) = false) : m ∉ t := by
  simpa using hm.eq_false ht

end IsStop

variable {w z : Text} {c m : Char}

namespace Text

/-- A run ends before a character that is not of its class. -/
theorem takeWhile_stop {p : Char → Bool} (hp : p m = false) (w z : Text) :
    (w ++ m :: z).takeWhile p = w.takeWhile p := by
  induction w with
  | nil => simp [hp]
  | cons c w ih => simp only [List.cons_append, List.takeWhile_cons, ih]

/-- Behind a run the text goes on with what was put behind it. -/
theorem drop_run (p : Char → Bool) (w z : Text) :
    (w ++ z).drop (w.takeWhile p).length = w.drop (w.takeWhile p).length ++ z :=
  List.drop_append_of_le_length (List.takeWhile_prefix p).length_le

/-- The first character is that of the text, or the one behind it. -/
theorem head?_append_cons (w z : Text) : (w ++ m :: z).head? = some (w.head?.getD m) := by
  cases w <;> rfl

/-- The first character is another one than the stop only in the text before. -/
theorem head?_stop_eq_some_iff (hc : m ≠ c) (w z : Text) :
    (w ++ m :: z).head? = some c ↔ w.head? = some c := by
  cases w with
  | nil => simp [hc]
  | cons d w => rfl

/-- A first character of a class without the stop stands in the text before. -/
theorem any_head?_stop {p : Char → Bool} (hp : p m = false) (w z : Text) :
    (w ++ m :: z).head?.any p = w.head?.any p := by
  cases w with
  | nil => simp [hp]
  | cons d w => rfl

/-- A start without the stop is taken off the text before. -/
theorem stripStart_stop {start : Text} (hstart : m ∉ start) (w z : Text) :
    stripStart start (w ++ m :: z) = (stripStart start w).map (· ++ m :: z) := by
  induction start generalizing w with
  | nil => rfl
  | cons p start ih =>
    rw [List.mem_cons, not_or] at hstart
    cases w with
    | nil => exact if_neg (Ne.symm hstart.1)
    | cons d w =>
      rw [List.cons_append, stripStart, stripStart, ih hstart.2]
      split <;> rfl

/-- A word does not reach over a character that it does not hold. -/
theorem foldCase_take_ne {word u : Text} {d : Char} (hd : d.toLower ∉ word)
    (hlength : u.length < word.length) (z : Text) :
    foldCase ((u ++ d :: z).take word.length) ≠ word := by
  intro h
  have hmem : d ∈ (u ++ d :: z).take word.length := by
    obtain ⟨n, hn⟩ : ∃ n, word.length - u.length = n + 1 :=
      ⟨word.length - u.length - 1, by omega⟩
    rw [List.take_append, hn]
    simp
  rw [← h] at hd
  exact hd (List.mem_map.2 ⟨d, hmem, rfl⟩)

/-- Whether a word that does not hold a character stands in front is decided before that character. -/
theorem take_stop_eq_iff {word : Text} (hword : m.toLower ∉ word) (w z : Text) :
    foldCase ((w ++ m :: z).take word.length) = word ↔ foldCase (w.take word.length) = word := by
  rcases Nat.lt_or_ge w.length word.length with hshort | hlength
  · -- Too short without the character, and with it no such word.
    have hne : foldCase (w.take word.length) ≠ word := by
      intro h
      have hlength := congrArg List.length h
      rw [length_foldCase, List.length_take] at hlength
      omega
    exact iff_of_false (foldCase_take_ne hword hshort z) hne
  · rw [List.take_append_of_le_length hlength]

end Text

/-! ## Words and numbers -/

/-- The second word of `yield from` is read before a stop. -/
theorem Word.fromLength?_stop (hm : IsStop m) (w z : Text) : fromLength? (w ++ m :: z) = fromLength? w := by
  have hgap : (w ++ m :: z).takeWhile Unicode.isSpace = w.takeWhile Unicode.isSpace :=
    Text.takeWhile_stop (hm.eq_false (by decide)) w z
  have hcontains : "from".toList.contains m.toLower = false :=
    hm.eq_false (p := fun m => "from".toList.contains m.toLower) (by decide)
  have hfree : m.toLower ∉ "from".toList := by
    intro hmem
    rw [List.contains_iff_mem.2 hmem] at hcontains
    cases hcontains
  have hword := Text.take_stop_eq_iff hfree (w.drop (w.takeWhile Unicode.isSpace).length) z
  unfold fromLength?
  dsimp only
  rw [hgap, ← List.drop_drop, ← List.drop_drop, Text.drop_run]
  generalize w.drop (w.takeWhile Unicode.isSpace).length = v at hword ⊢
  change Text.foldCase ((v ++ m :: z).take 4) = _ ↔ Text.foldCase (v.take 4) = _ at hword
  simp only [hword]
  by_cases hfrom : Text.foldCase (v.take 4) = "from".toList
  · have hlength : min 4 v.length = 4 := by
      rw [← List.length_take, ← Text.length_foldCase, hfrom]
      rfl
    have hdrop : (v ++ m :: z).drop 4 = v.drop 4 ++ m :: z :=
      List.drop_append_of_le_length (by omega)
    rw [hdrop, Text.any_head?_stop (p := isNameChar) (hm.eq_false (by decide))]
  · rw [if_neg fun h => hfrom h.2.1, if_neg fun h => hfrom h.2.1]

/-- A word is read before a stop. -/
theorem Word.read_stop (hm : IsStop m) (previous : Option Kind) (c : Char) (w z : Text) :
    read previous c (w ++ m :: z) = read previous c w := by
  have htail : (w ++ m :: z).takeWhile isNameChar = w.takeWhile isNameChar :=
    Text.takeWhile_stop (hm.eq_false (by decide)) w z
  unfold read
  dsimp only
  rw [htail, Text.drop_run, fromLength?_stop hm]

namespace Number

theorem startsWithDigit_stop (hm : IsStop m) (w z : Text) :
    startsWithDigit (w ++ m :: z) = startsWithDigit w :=
  Text.any_head?_stop (hm.eq_false (by decide)) w z

/-- An integer in another base is read before a stop. -/
theorem basedLength?_stop (hm : IsStop m) (w z : Text) :
    basedLength? (w ++ m :: z) = basedLength? w := by
  rw [basedLength?_eq, basedLength?_eq]
  cases w with
  | nil =>
    have hzero : m ≠ '0' := hm.ne (by decide)
    rw [if_neg (by simp [hzero]), if_neg (by simp)]
  | cons c w =>
    cases w with
    | nil =>
      have hletter : ['x', 'X', 'b', 'B'].contains m = false :=
        hm.eq_false (p := (['x', 'X', 'b', 'B'].contains ·)) (by decide)
      rw [if_neg, if_neg (by simp)]
      intro h
      exact Bool.false_ne_true (hletter.symm.trans h.2)
    | cons d w =>
      have hdigits : (w ++ m :: z).takeWhile isHexOrMark = w.takeWhile isHexOrMark :=
        Text.takeWhile_stop (hm.eq_false (by decide)) w z
      simp only [List.cons_append, List.drop_succ_cons, List.drop_zero, hdigits, List.head?_cons]

/-- A fraction is read before a stop. -/
theorem fractionLength_stop (hm : IsStop m) (w z : Text) :
    fractionLength (w ++ m :: z) = fractionLength w := by
  rw [fractionLength_eq, fractionLength_eq]
  cases w with
  | nil =>
    have hpoint : m ≠ '.' := hm.ne (by decide)
    rw [if_neg (by simp [hpoint]), if_neg (by simp)]
  | cons c w =>
    have hdigits : (w ++ m :: z).takeWhile isDigitOrMark = w.takeWhile isDigitOrMark :=
      Text.takeWhile_stop (hm.eq_false (by decide)) w z
    simp only [List.cons_append, List.drop_succ_cons, List.drop_zero, List.head?_cons, hdigits,
      startsWithDigit_stop hm]

/-- An exponent is read before a stop. -/
theorem exponentLength_stop (hm : IsStop m) (w z : Text) :
    exponentLength (w ++ m :: z) = exponentLength w := by
  cases w with
  | nil =>
    have hletter : ¬(m = 'e' ∨ m = 'E') := not_or.2 ⟨hm.ne (by decide), hm.ne (by decide)⟩
    rw [List.nil_append, exponentLength, if_neg hletter]
    rfl
  | cons c w =>
    have hdigits (v : Text) : (v ++ m :: z).takeWhile isDigitOrMark = v.takeWhile isDigitOrMark :=
      Text.takeWhile_stop (hm.eq_false (by decide)) v z
    simp only [List.cons_append, exponentLength,
      Text.head?_stop_eq_some_iff (hm.ne (c := '+') (by decide)),
      Text.head?_stop_eq_some_iff (hm.ne (c := '-') (by decide))]
    -- A sign is skipped only if it stands in front of the stop.
    by_cases hsign : w.head? = some '+' ∨ w.head? = some '-'
    · obtain ⟨d, v, rfl⟩ : ∃ d v, w = d :: v := by
        cases w with
        | nil => simp at hsign
        | cons d v => exact ⟨d, v, rfl⟩
      simp only [if_pos hsign, List.cons_append, List.drop_succ_cons, List.drop_zero,
        startsWithDigit_stop hm, hdigits]
    · simp only [if_neg hsign, List.drop_zero, startsWithDigit_stop hm, hdigits]

/-- A number is read before a stop. -/
theorem read_stop (hm : IsStop m) (w z : Text) : read (w ++ m :: z) = read w := by
  have hwhole : (w ++ m :: z).takeWhile isDigitOrMark = w.takeWhile isDigitOrMark :=
    Text.takeWhile_stop (hm.eq_false (by decide)) w z
  have hfraction (v : Text) : fractionLength v ≤ v.length := by
    fun_cases fractionLength v with
    | case1 rest =>
      have hdigits := (List.takeWhile_prefix isDigitOrMark (l := rest)).length_le
      rw [List.length_cons]
      omega
    | case2 => exact Nat.zero_le _
    | case3 => exact Nat.zero_le _
  unfold read
  rw [basedLength?_stop hm]
  cases basedLength? w with
  | some n => rfl
  | none =>
    dsimp only
    rw [hwhole, ← List.drop_drop, ← List.drop_drop, Text.drop_run, fractionLength_stop hm,
      List.drop_append_of_le_length (hfraction _), exponentLength_stop hm]

end Number

/-! ## White space and comments -/

/-- White space is read before a stop. -/
theorem Scan.whitespaceTail_stop (hm : IsStop m) (c : Char) (w z : Text) :
    whitespaceTail c (w ++ m :: z) = whitespaceTail c w := by
  have hgap : (w ++ m :: z).takeWhile isGap = w.takeWhile isGap :=
    Text.takeWhile_stop (hm.eq_false (by decide)) w z
  unfold whitespaceTail
  dsimp only
  rw [hgap, Text.drop_run]
  simp only [Text.head?_stop_eq_some_iff (hm.ne (c := '\n') (by decide))]

namespace Comment

/-- A line comment ends at a closing tag. -/
theorem untilLineEnd_tag (w y : Text) : untilLineEnd (w ++ '?' :: '>' :: y) = untilLineEnd w := by
  induction w with
  | nil => rfl
  | cons c w ih =>
    have hnext : ((w ++ '?' :: '>' :: y).head? == some '>') = (w.head? == some '>') := by
      rw [Bool.eq_iff_iff, beq_iff_eq, beq_iff_eq]
      exact Text.head?_stop_eq_some_iff (by decide) w _
    rw [List.cons_append, untilLineEnd, untilLineEnd, ih, hnext]

/-- A line that ends before a stop ends there whatever follows, and one that does not goes past it. -/
theorem untilLineEnd_stop_cases (hm : IsStop m) (hmark : m ≠ '?') (w z : Text) :
    untilLineEnd (w ++ m :: z) = untilLineEnd w ∨
      untilLineEnd (w ++ m :: z) = w ++ m :: untilLineEnd z := by
  induction w with
  | nil =>
    have hfeed : m ≠ '\n' := hm.ne (by decide)
    exact .inr (by simp [untilLineEnd, hfeed, hmark])
  | cons c w ih =>
    have hnext : ((w ++ m :: z).head? == some '>') = (w.head? == some '>') := by
      rw [Bool.eq_iff_iff, beq_iff_eq, beq_iff_eq]
      exact Text.head?_stop_eq_some_iff (hm.ne (by decide)) w z
    rw [List.cons_append, untilLineEnd, untilLineEnd, hnext]
    split
    · exact .inl rfl
    · split
      · exact .inl rfl
      · exact ih.imp (congrArg (c :: ·)) (congrArg (c :: ·))

/-- A return that is dropped at the end leaves every other character. -/
theorem lt_length_dropReturn (hreturn : m ≠ '\r') (w t : Text) :
    w.length < (Text.dropReturn (w ++ m :: t)).length := by
  unfold Text.dropReturn
  split
  · next hlast =>
    -- The carriage return that is dropped stands behind the character.
    have hend : t ≠ [] := by
      rintro rfl
      rw [List.getLast?_concat, Option.some.injEq] at hlast
      exact hreturn hlast
    have hpos := List.length_pos_iff.2 hend
    rw [List.length_dropLast, List.length_append, List.length_cons]
    omega
  · rw [List.length_append, List.length_cons]
    omega

/-- A line comment that ends before a stop is a line comment of the text before. -/
theorem lineTail_eq_of_le (hm : IsStop m) (hmark : m ≠ '?')
    (h : (lineTail (w ++ m :: z)).length ≤ w.length) : lineTail w = lineTail (w ++ m :: z) := by
  unfold lineTail at h ⊢
  rcases untilLineEnd_stop_cases hm hmark w z with hline | hline
  · rw [hline]
  · rw [hline] at h
    have hlt := lt_length_dropReturn (hm.ne (by decide)) w (untilLineEnd z)
    omega

/-- Behind a stop that is no question mark a line comment takes at least that. -/
theorem length_lineTail_pos (hm : IsStop m) (hmark : m ≠ '?') (z : Text) :
    0 < (lineTail (m :: z)).length := by
  have hfeed : m ≠ '\n' := hm.ne (by decide)
  have hline : untilLineEnd (m :: z) = m :: untilLineEnd z := by
    simp [untilLineEnd, hfeed, hmark]
  rw [lineTail, hline]
  exact lt_length_dropReturn (hm.ne (by decide)) [] (untilLineEnd z)

/-- Whether a doc comment opens is decided before a stop. -/
theorem opensDoc_stop (hm : IsStop m) (w z : Text) : opensDoc (w ++ m :: z) = opensDoc w := by
  rw [opensDoc_eq, opensDoc_eq, Text.stripStart_stop (hm.notMem (by decide))]
  cases Text.stripStart ['*', '*'] w with
  | none => rfl
  | some rest => exact Text.any_head?_stop (hm.eq_false (by decide)) rest z

/-- Whether a comment is closed before some place is decided by the text before it. -/
theorem untilClose_append_iff {body : Text} :
    untilClose (w ++ z) = some body ∧ body.length + 2 ≤ w.length ↔ untilClose w = some body := by
  induction w generalizing body with
  | nil => simp [untilClose]
  | cons c w ih =>
    cases w with
    | nil => simp [untilClose]
    | cons d w =>
      rw [List.cons_append, untilClose, untilClose, List.cons_append, List.head?_cons,
        List.head?_cons]
      by_cases hclose : (decide (c = '*') && some d == some '/') = true
      · rw [if_pos hclose, if_pos hclose]
        simp only [Option.some.injEq, List.length_cons, and_iff_left_iff_imp]
        rintro rfl
        simp
      · rw [if_neg hclose, if_neg hclose]
        simp only [Option.map_eq_some_iff, ← ih, ← List.cons_append]
        constructor
        · rintro ⟨⟨inner, hinner, rfl⟩, hlength⟩
          exact ⟨inner, ⟨hinner, Nat.le_of_succ_le_succ (by simpa using hlength)⟩, rfl⟩
        · rintro ⟨inner, ⟨hinner, hlength⟩, rfl⟩
          exact ⟨⟨inner, hinner, rfl⟩, by simpa using hlength⟩

end Comment

end PhpLint

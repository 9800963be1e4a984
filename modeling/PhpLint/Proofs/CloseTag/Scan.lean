import PhpLint.Proofs.CloseTag.Reading
import PhpLint.Proofs.Lexing.Construct

/-!
# Scans that end with a closing tag

A scan that ends with a closing tag has reached the tag from the front, so every step before it took
what stands in front of the tag and no more.  Such a step does not look behind the tag
(`steady_read`, and the same for the search for an open tag), and the next step starts at the same
place.  The tag itself looks at one more character, since a line feed belongs to it.  So whatever
follows is scanned from outside of code, where a scan remembers nothing: `ofText_append` is the
induction over the scanner.
-/

namespace PhpLint.Scan

variable {w y : Text} {c : Char} {previous : Option Kind} {mode : Mode} {tag : Text}

/-! ## Outside of code -/

/-- The search for an open tag is decided behind two characters and a greater-than sign. -/
theorem openTagLength?_append {u : Text} (hu : 2 ≤ u.length) (y : Text) :
    openTagLength? (u ++ '>' :: y) = openTagLength? (u ++ ['>']) := by
  have hecho : Text.startsWith ['<', '?', '='] (u ++ '>' :: y) =
      Text.startsWith ['<', '?', '='] (u ++ ['>']) := by
    have hlength : ['<', '?', '='].length ≤ (u ++ ['>']).length := by
      simp only [List.length_append, List.length_cons, List.length_nil]
      omega
    simpa using Text.startsWith_append hlength y
  unfold openTagLength?
  rw [hecho]
  by_cases hlength : 5 ≤ u.length
  · rw [List.take_append_of_le_length hlength, List.take_append_of_le_length hlength,
      List.drop_append_of_le_length hlength, List.drop_append_of_le_length hlength]
    congr 2
    -- Of what stands behind the tag no more than two characters count, and a line feed as the second.
    generalize u.drop 5 = v
    cases v with
    | nil => rfl
    | cons c v =>
      cases v with
      | nil => grind
      | cons d v => grind
  · have hsign : '>'.toLower ∉ "<?php".toList := by decide
    have hword (z : Text) : Text.foldCase ((u ++ '>' :: z).take 5) ≠ "<?php".toList :=
      Text.foldCase_take_ne hsign (Nat.lt_of_not_le hlength) z
    rw [if_neg (hword y), if_neg (hword [])]

/-- An open tag in front of a closing tag is found without a look behind the closing tag. -/
theorem openTagLength?_tag (c : Char) (w y y' : Text) :
    openTagLength? (c :: (w ++ '?' :: '>' :: y')) = openTagLength? (c :: (w ++ '?' :: '>' :: y)) := by
  have hbehind (y : Text) : openTagLength? (c :: (w ++ '?' :: '>' :: y)) =
      openTagLength? (c :: (w ++ ['?', '>'])) := by
    simpa using openTagLength?_append (u := c :: (w ++ ['?'])) (by simp) y
  rw [hbehind, ← hbehind y]

/-- Text outside of code that ends before a closing tag ends there whatever follows the tag. -/
theorem untilOpenTag_tag (h : untilOpenTag (w ++ '?' :: '>' :: y) ≤ w.length) (y' : Text) :
    untilOpenTag (w ++ '?' :: '>' :: y') = untilOpenTag (w ++ '?' :: '>' :: y) := by
  induction w with
  | nil =>
    -- The question mark is no open tag, so the search has gone past it.
    rw [List.nil_append, untilOpenTag, openTagLength?_of_ne (by decide)] at h
    simp at h
  | cons c w ih =>
    rw [List.cons_append, untilOpenTag] at h ⊢
    rw [List.cons_append, untilOpenTag, openTagLength?_tag c w y y']
    split
    · rfl
    · next htag =>
      rw [if_neg htag] at h
      rw [ih (Nat.le_of_succ_le_succ h)]

/-! ## The closing tag -/

/-- The number of line feeds that belong to a closing tag in front of a text. -/
def feedLength (r : Text) : Nat := if r.head? = some '\n' then 1 else 0

/-- A closing tag takes a line feed behind it, and nothing else. -/
theorem read_closeTag (previous : Option Kind) (r : Text) :
    read previous '?' ('>' :: r) = .one .closeTag (feedLength r + 1) := by
  have hread : read previous '?' ('>' :: r) =
      .one .closeTag (if r.head? = some '\n' then 2 else 1) := rfl
  rw [hread, feedLength]
  split <;> rfl

/-- A construct that is a closing tag is written like one. -/
theorem Construct.of_closeTag {rest : Text} {n : Nat} (h : Construct previous c rest .closeTag n) :
    ∃ r, c = '?' ∧ rest = '>' :: r ∧ n = feedLength r + 1 := by
  cases h with
  | closeTag hc hnext =>
    obtain ⟨r, rfl⟩ := List.head?_eq_some_iff.1 hnext
    refine ⟨r, hc, rfl, ?_⟩
    rw [feedLength, List.drop_succ_cons, List.drop_zero]
    split <;> rfl
  | single hsingle => rcases sign?_of_single hsingle with h | h <;> cases h
  | longer hentry => simp [Operator.longer] at hentry
  | number _ hnumber => rcases hnumber with h | h <;> cases h

/-- A scan that meets no fault and whose last lexeme is a closing tag. -/
structure ClosedBy (tag : Text) (s : Scan) : Prop where
  fault_eq : s.fault = none
  getLast? : s.lexemes.getLast? = some ⟨.closeTag, tag⟩

/-- Lexemes in front of a scan are put there one list after another. -/
theorem after_after (ls ls' : List Lexeme) (s : Scan) :
    (s.after ls').after ls = s.after (ls ++ ls') := by
  simp [after]

/-- Behind some lexemes, either what follows is closed by the tag, or nothing follows. -/
theorem ClosedBy.after_cases {s : Scan} {ls : List Lexeme} (h : ClosedBy tag (s.after ls)) :
    ClosedBy tag s ∨ s = ⟨[], none⟩ ∧ ls.getLast? = some ⟨.closeTag, tag⟩ := by
  have hlast := h.getLast?
  rw [lexemes_after, List.getLast?_append, Option.or_eq_some_iff,
    List.getLast?_eq_none_iff] at hlast
  rcases hlast with hlast | ⟨hnil, hlast⟩
  · exact .inl ⟨h.fault_eq, hlast⟩
  · refine .inr ⟨?_, hlast⟩
    rw [← hnil, ← h.fault_eq, fault_after]

/-- A scan is closed by a tag that stands nowhere in front of it. -/
theorem ClosedBy.of_after {s : Scan} {ls : List Lexeme} (h : ClosedBy tag (s.after ls))
    (hls : ⟨.closeTag, tag⟩ ∉ ls) : ClosedBy tag s :=
  h.after_cases.resolve_right fun hend => hls (List.mem_of_getLast? hend.2)

/-- A text that is scanned up to a closing tag ends with the tag. -/
theorem ClosedBy.exists_eq {t : Text} (h : ClosedBy tag (ofText mode previous t)) :
    ∃ v e, t = v ++ '?' :: '>' :: e := by
  obtain ⟨before, hbefore⟩ := List.getLast?_eq_some_iff.1 h.getLast?
  obtain ⟨previous, c, rest, n, hconstruct, rfl, -⟩ :=
    (occurs_ofText h.fault_eq hbefore).exists_construct (by simp) (by simp) rfl
  obtain ⟨r, rfl, rfl, rfl⟩ := hconstruct.of_closeTag
  have hspell := (reads_ofText h.fault_eq).spell_eq
  rw [hbefore, Lexeme.spell_append, Lexeme.spell_cons] at hspell
  exact ⟨_, _, by simpa using hspell.symm⟩

/-! ### What is read in front of the tag

What stands in front of a text that is closed by the tag is read without a look behind the tag.
-/

section Front

variable {rest : Text} {n : Nat}

/-- What is left behind a step of a closed scan has a tag in it, so the step stops in front of one. -/
theorem ClosedBy.exists_front (h : ClosedBy tag (ofText mode previous (rest.drop n))) :
    ∃ w e, rest = w ++ '?' :: '>' :: e ∧ n ≤ w.length := by
  obtain ⟨v, e, hv⟩ := h.exists_eq
  have hlength := congrArg List.length hv
  rw [List.length_drop, List.length_append, List.length_cons] at hlength
  refine ⟨rest.take n ++ v, e, ?_, ?_⟩
  · rw [List.append_assoc, ← hv, List.take_append_drop]
  · rw [List.length_append, List.length_take]
    omega

/-- A step of a closed scan takes no more than there is. -/
theorem ClosedBy.le_length (h : ClosedBy tag (ofText mode previous (rest.drop n))) :
    n ≤ rest.length := by
  obtain ⟨w, e, rfl, hn⟩ := h.exists_front
  rw [List.length_append]
  omega

/-- Whether an open tag stands in front of a closed scan is decided without a look behind its end. -/
theorem ClosedBy.openTagLength?_append (h : ClosedBy tag (ofText mode previous (rest.drop n)))
    (c : Char) (y : Text) : openTagLength? (c :: (rest ++ y)) = openTagLength? (c :: rest) := by
  obtain ⟨w, e, rfl, -⟩ := h.exists_front
  simpa using openTagLength?_tag c w e (e ++ y)

/-- The text up to an open tag in a closed scan is the same whatever follows. -/
theorem ClosedBy.untilOpenTag_append
    (h : ClosedBy tag (ofText mode previous (rest.drop (untilOpenTag rest)))) (y : Text) :
    untilOpenTag (rest ++ y) = untilOpenTag rest := by
  obtain ⟨w, e, rfl, hn⟩ := h.exists_front
  simpa using untilOpenTag_tag hn (e ++ y)

/-- What a step of a closed scan reads is the same whatever follows. -/
theorem ClosedBy.read_append {previous' : Option Kind}
    (h : ClosedBy tag (ofText mode previous' (rest.drop n))) (hn : EndsBy n (read previous c rest))
    (y : Text) : read previous c (rest ++ y) = read previous c rest := by
  obtain ⟨w, e, rfl, hlength⟩ := h.exists_front
  simpa using steady_read previous c w e (e ++ y) (hn.mono hlength)

end Front

/-- What follows a closing tag at the end of a text is scanned by itself, if it brings no line feed
that the tag would take. -/
theorem ofText_closeTag_append {r : Text} (hend : r.drop (feedLength r) = [])
    (hfeed : r = [] → y.head? ≠ some '\n') :
    ofText .code previous ('?' :: '>' :: r ++ y) =
      (ofText .html none y).after [⟨.closeTag, '?' :: '>' :: r⟩] := by
  have hsame : feedLength (r ++ y) = r.length := by
    cases r with
    | nil => exact if_neg (hfeed rfl)
    | cons c r =>
      -- One line feed at most belongs to the tag, so it is all that follows.
      have hle : feedLength (c :: r) ≤ 1 := by
        unfold feedLength
        split <;> decide
      have hlength := congrArg List.length hend
      have hfeed : feedLength (c :: r ++ y) = feedLength (c :: r) := rfl
      rw [List.length_drop, List.length_cons, List.length_nil] at hlength
      rw [hfeed, List.length_cons]
      omega
  rw [List.cons_append, List.cons_append, ofText_one (read_closeTag previous (r ++ y)), if_pos rfl,
    ofText_html_previous _ none, hsame]
  simp

/-- What is scanned up to a closing tag is scanned the same whatever follows the tag, and what
follows is scanned by itself, if it brings no line feed that the tag would take. -/
theorem ofText_append {x : Text} (h : ClosedBy tag (ofText mode previous x))
    (hfeed : tag = ['?', '>'] → y.head? ≠ some '\n') :
    ofText mode previous (x ++ y) = (ofText .html none y).after (ofText mode previous x).lexemes := by
  fun_induction ofText mode previous x with
  | case1 => cases h.getLast?
  | case2 previous c rest n htag ih =>
    have hrest := h.of_after (by simp)
    have htag' := (hrest.openTagLength?_append c y).trans htag
    rw [List.cons_append, ofText_tag htag', List.drop_append_of_le_length hrest.le_length,
      List.take_append_of_le_length hrest.le_length, ih hrest, after_after, lexemes_after]
  | case3 previous c rest htag ih =>
    have hrest := h.of_after (by simp)
    have htag' := (hrest.openTagLength?_append c y).trans htag
    rw [List.cons_append, ofText_html htag', hrest.untilOpenTag_append,
      List.drop_append_of_le_length hrest.le_length, List.take_append_of_le_length hrest.le_length,
      ih hrest, after_after, lexemes_after]
  | case4 previous c rest k n hread ih =>
    rcases h.after_cases with hrest | ⟨hend, hlast⟩
    · have hread' := (hrest.read_append (by rw [hread]; exact Nat.le_refl n) y).trans hread
      simp only [dite_eq_ite] at ih
      rw [List.cons_append, ofText_one hread', List.drop_append_of_le_length hrest.le_length,
        List.take_append_of_le_length hrest.le_length, ih hrest, after_after, lexemes_after]
    · -- The lexeme is the closing tag at the end.
      obtain ⟨rfl, rfl⟩ : k = .closeTag ∧ c :: rest.take n = tag := by simpa using hlast
      obtain ⟨r, rfl, rfl, rfl⟩ := (construct_of_read hread).of_closeTag
      have hnil := (reads_ofText (congrArg Scan.fault hend)).spell_eq
      rw [hend, List.drop_succ_cons] at hnil
      have htake := List.take_append_drop (feedLength r) r
      rw [← hnil, Lexeme.spell_nil, List.append_nil] at htake
      rw [hend, List.take_succ_cons, htake]
      exact ofText_closeTag_append hnil.symm fun hr => hfeed (by rw [List.take_succ_cons, htake, hr])
  | case5 previous c rest body hread ih =>
    have hdoc : ⟨.closeTag, tag⟩ ∉ Comment.doc body := by
      intro hmem
      cases isDocComment_of_mem_doc hmem
    have hrest := h.of_after hdoc
    have hread' := (hrest.read_append (by rw [hread]; exact Nat.le_refl _) y).trans hread
    rw [List.cons_append, ofText_doc hread', List.drop_append_of_le_length hrest.le_length,
      ih hrest, after_after, lexemes_after]
  | case6 previous c rest fault hread => cases h.fault_eq

end PhpLint.Scan

import Mathlib.Data.List.Find
import PhpLint.Proofs.Lexing.Reading
import PhpLint.Proofs.LineEnds.Literal

/-!
# Readings with returns

Whatever stands at the front of PHP code is read alike in both forms of a source: as a lexeme of the
same kind up to the same cut, as a doc comment around the same body, or as the same fault
(`alike_read`).  The one exception is a closing tag, which takes a line feed behind it but leaves a
return and its line feed to the text outside of the code.
-/

namespace PhpLint

open Text (withReturns SameCut)

/-- A lexeme of this kind may hold line feeds. -/
def Kind.mayBreak : Kind → Bool
  | openTag | closeTag | inlineHtml | whitespace | comment | docSpace | quoted | heredoc
  | yieldFrom => true
  | _ => false

/-! ## Numbers -/

namespace Number

/-- A digit stands in front of both forms or of none. -/
theorem startsWithDigit_withReturns (t : Text) :
    startsWithDigit (withReturns t) = startsWithDigit t :=
  Text.any_head?_withReturns (by decide) t

/-- What a number takes holds no line feed, and the other form of the text starts with it too. -/
theorem fraction_withReturns (t : Text) :
    fractionLength (withReturns t) = fractionLength t ∧ '\n' ∉ t.take (fractionLength t) := by
  have hhead := Text.head?_withReturns_eq_some_iff (c := '.') (by decide) (by decide) t
  rw [fractionLength_eq, fractionLength_eq]
  by_cases hpoint : t.head? = some '.'
  · obtain ⟨rest, rfl⟩ := List.head?_eq_some_iff.1 hpoint
    have hrest : (withReturns ('.' :: rest)).drop 1 = withReturns rest := rfl
    have hdigits : (withReturns rest).takeWhile isDigitOrMark = rest.takeWhile isDigitOrMark :=
      Text.takeWhile_withReturns (by decide) (by decide) rest
    simp only [hhead, hrest, List.drop_succ_cons, List.drop_zero, startsWithDigit_withReturns, hdigits,
      true_and]
    by_cases hdigit : startsWithDigit rest = true
    · rw [if_pos ⟨hpoint, hdigit⟩, Nat.add_comm 1, List.take_succ_cons, List.mem_cons, not_or]
      exact ⟨by decide, Text.feed_notMem_take_takeWhile (by decide) rest⟩
    · simp [hdigit]
  · simp [hhead, hpoint]

/-- An integer in another base has the same length, and no line feed in it. -/
theorem based_withReturns (t : Text) :
    basedLength? (withReturns t) = basedLength? t ∧
      ∀ n ∈ basedLength? t, '\n' ∉ t.take n := by
  have hhead := Text.head?_withReturns_eq_some_iff (c := '0') (by decide) (by decide) t
  rw [basedLength?_eq, basedLength?_eq]
  by_cases hzero : t.head? = some '0'
  · obtain ⟨rest, rfl⟩ := List.head?_eq_some_iff.1 hzero
    have hnext := Text.any_head?_withReturns (p := (['x', 'X', 'b', 'B'].contains ·)) (by decide) rest
    have hrest : (withReturns ('0' :: rest)).drop 1 = withReturns rest := rfl
    have hrest' : (withReturns ('0' :: rest)).drop 2 = (withReturns rest).drop 1 := rfl
    simp only [hhead, hrest, hrest', List.drop_succ_cons, List.drop_zero, hnext]
    by_cases hletter : rest.head?.any (['x', 'X', 'b', 'B'].contains ·) = true
    · cases rest with
      | nil => simp at hletter
      | cons c rest =>
        have hc : c ≠ '\n' := by
          rintro rfl
          simp at hletter
        have hdigits : (withReturns rest).takeWhile isHexOrMark = rest.takeWhile isHexOrMark :=
          Text.takeWhile_withReturns (by decide) (by decide) rest
        rw [if_pos ⟨hzero, hletter⟩, Text.withReturns_cons hc, List.drop_succ_cons, List.drop_zero,
          hdigits, if_pos ⟨hzero, hletter⟩]
        refine ⟨rfl, fun n hn => ?_⟩
        obtain rfl := Option.some.inj hn
        rw [Nat.add_comm, List.take_succ_cons, List.take_succ_cons, List.mem_cons, List.mem_cons,
          not_or, not_or]
        exact ⟨by decide, hc.symm, Text.feed_notMem_take_takeWhile (by decide) rest⟩
    · simp only [hletter, Bool.false_eq_true, and_false, if_false]
      exact ⟨trivial, fun n hn => by cases hn⟩
  · simp [hhead, hzero]

/-- An exponent has the same length, and no line feed in it. -/
theorem exponent_withReturns (t : Text) :
    exponentLength (withReturns t) = exponentLength t ∧ '\n' ∉ t.take (exponentLength t) := by
  cases t with
  | nil => exact ⟨rfl, List.not_mem_nil⟩
  | cons c t =>
    by_cases hc : c = 'e' ∨ c = 'E'
    · have hfeed : c ≠ '\n' := by
        rintro rfl
        simp at hc
      have hplus := Text.head?_withReturns_eq_some_iff (c := '+') (by decide) (by decide) t
      have hminus := Text.head?_withReturns_eq_some_iff (c := '-') (by decide) (by decide) t
      rw [Text.withReturns_cons hfeed, exponentLength, exponentLength, if_pos hc, if_pos hc]
      simp only [hplus, hminus]
      generalize hsign : (if t.head? = some '+' ∨ t.head? = some '-' then 1 else 0) = sign
      have hbefore : '\n' ∉ t.take sign := by
        by_cases hhead : t.head? = some '+' ∨ t.head? = some '-'
        · obtain rfl : 1 = sign := by simpa [hhead] using hsign
          cases t with
          | nil => simp
          | cons d t =>
            rintro hmem
            obtain rfl := List.mem_singleton.1 hmem
            simp at hhead
        · obtain rfl : 0 = sign := by simpa [hhead] using hsign
          simp
      have hdigits : (withReturns (t.drop sign)).takeWhile isDigitOrMark =
          (t.drop sign).takeWhile isDigitOrMark :=
        Text.takeWhile_withReturns (by decide) (by decide) _
      rw [(SameCut.of_not_mem hbefore).drop, startsWithDigit_withReturns, hdigits]
      refine ⟨rfl, ?_⟩
      by_cases hdigit : startsWithDigit (t.drop sign) = true
      · rw [if_pos hdigit, Nat.add_assoc, Nat.add_comm 1, List.take_succ_cons, List.mem_cons, not_or,
          List.take_add, List.mem_append, not_or]
        exact ⟨hfeed.symm, hbefore, Text.feed_notMem_take_takeWhile (by decide) _⟩
      · rw [if_neg hdigit]
        exact List.not_mem_nil
    · have hnone (t : Text) : exponentLength (c :: t) = 0 := by
        rw [exponentLength, if_neg hc]
      by_cases hfeed : c = '\n'
      · subst hfeed
        exact ⟨by rw [Text.withReturns_feed, hnone]; rfl, by rw [hnone]; exact List.not_mem_nil⟩
      · rw [Text.withReturns_cons hfeed, hnone, hnone]
        exact ⟨rfl, List.not_mem_nil⟩

/-- A number is the same in both forms, and has no line feed in it. -/
theorem read_withReturns (t : Text) : read (withReturns t) = read t ∧ '\n' ∉ t.take (read t).2 := by
  obtain ⟨hbased, hbasedFree⟩ := based_withReturns t
  unfold read
  rw [hbased]
  cases hlength : basedLength? t with
  | some n => exact ⟨rfl, hbasedFree n hlength⟩
  | none =>
    have hwhole : (withReturns t).takeWhile isDigitOrMark = t.takeWhile isDigitOrMark :=
      Text.takeWhile_withReturns (by decide) (by decide) t
    have hfree := Text.feed_notMem_take_takeWhile (p := isDigitOrMark) (by decide) t
    have hcut := SameCut.of_not_mem hfree
    obtain ⟨hfraction, hfractionFree⟩ := fraction_withReturns (t.drop (t.takeWhile isDigitOrMark).length)
    have hcut' := hcut.add (SameCut.of_not_mem hfractionFree)
    obtain ⟨hexponent, hexponentFree⟩ := exponent_withReturns
      (t.drop ((t.takeWhile isDigitOrMark).length +
        fractionLength (t.drop (t.takeWhile isDigitOrMark).length)))
    dsimp only
    rw [hwhole, hcut.drop, hfraction, hcut'.drop, hexponent]
    refine ⟨rfl, ?_⟩
    rw [List.take_add, List.take_add, List.mem_append, List.mem_append, not_or, not_or]
    exact ⟨⟨hfree, hfractionFree⟩, hexponentFree⟩

end Number

/-! ## Operators -/

namespace Operator

/-- An operator is the same in both forms, and has no line feed in it. -/
theorem read_withReturns {c : Char} (hc : c ≠ '\n') (rest : Text) :
    read c (withReturns rest) = read c rest ∧ '\n' ∉ rest.take (read c rest).2 := by
  have htable : ∀ entry ∈ longer, '\n' ∉ entry.1 ∧ '\r' ∉ entry.1 := by decide
  have hstart : ∀ entry ∈ longer, Text.startsWith entry.1 (c :: withReturns rest) =
      Text.startsWith entry.1 (c :: rest) := by
    intro entry hentry
    obtain ⟨hfeed, hreturn⟩ := htable entry hentry
    rw [← Text.withReturns_cons hc, Text.startsWith_withReturns hfeed hreturn]
  unfold read
  rw [List.find?_congr hstart]
  cases hfound : longer.find? fun entry => Text.startsWith entry.1 (c :: rest) with
  | none => exact ⟨rfl, List.not_mem_nil⟩
  | some entry =>
    refine ⟨rfl, ?_⟩
    have hfeed := (htable entry (List.mem_of_find?_eq_some hfound)).1
    have hstart := List.find?_some hfound
    obtain ⟨after, hafter⟩ := Text.startsWith_iff.1 hstart
    obtain ⟨spelling, kind⟩ := entry
    cases spelling with
    | nil => exact List.not_mem_nil
    | cons d spelling =>
      obtain ⟨-, rfl⟩ := List.cons.inj hafter
      simpa using fun h => hfeed (List.mem_cons_of_mem d h)

end Operator

/-! ## Words -/

namespace Word

/-- The second word of `yield from` ends at the same cut. -/
theorem fromLength?_withReturns (after : Text) :
    Option.Rel (SameCut after) (fromLength? after) (fromLength? (withReturns after)) := by
  have hgap : (withReturns after).takeWhile Unicode.isSpace =
      withReturns (after.takeWhile Unicode.isSpace) :=
    Text.takeWhile_withReturns_of_ends (by decide) (by decide) after
  have hcut := SameCut.of_append (after.takeWhile Unicode.isSpace) (after.dropWhile Unicode.isSpace)
  rw [List.takeWhile_append_dropWhile, ← hgap] at hcut
  unfold fromLength?
  dsimp only
  have hempty : ((withReturns after).takeWhile Unicode.isSpace).length ≠ 0 ↔
      (after.takeWhile Unicode.isSpace).length ≠ 0 := by
    rw [hgap]
    cases after.takeWhile Unicode.isSpace with
    | nil => rfl
    | cons c t =>
      by_cases hc : c = '\n'
      · subst hc
        simp
      · simp [Text.withReturns_cons hc]
  generalize ((withReturns after).takeWhile Unicode.isSpace).length = gap' at hcut hempty ⊢
  generalize (after.takeWhile Unicode.isSpace).length = gap at hcut hempty ⊢
  have hword : _ ↔ Text.foldCase ((after.drop gap).take 4) = "from".toList :=
    Text.foldCase_take_withReturns (by decide) (by decide) (after.drop gap) 4
  rw [← hcut.drop] at hword
  by_cases hfrom : Text.foldCase ((after.drop gap).take 4) = "from".toList
  · have hfree := Text.feed_notMem_of_foldCase hfrom (by decide)
    have hcut' := hcut.add (SameCut.of_not_mem hfree)
    have hnext := Text.any_head?_withReturns (p := isNameChar) (by decide) (after.drop (gap + 4))
    rw [hcut'.drop, hnext]
    simp only [hempty, hword]
    split
    · exact .some hcut'
    · exact .none
  · rw [if_neg fun h => hfrom h.2.1, if_neg fun h => hfrom (hword.1 h.2.1)]
    exact .none

end Word

namespace Scan

/-! ## Everything at the front of code -/

/-- What the kind of a lexeme says about its text. -/
structure Suits (kind : Kind) (t : Text) : Prop where
  plain : kind.mayBreak = false → '\n' ∉ t
  word : kind = .identifier → Text.isNoWord t = false
  close : kind = .closeTag → Text.isNoWord t = true

/-- A kind that may break says nothing of line feeds. -/
theorem Suits.of_mayBreak {kind : Kind} {t : Text} (h : kind.mayBreak = true)
    (hclose : kind ≠ .closeTag) : Suits kind t := by
  refine ⟨fun hplain => ?_, ?_, fun hkind => absurd hkind hclose⟩
  · rw [h] at hplain
    cases hplain
  · rintro rfl
    cases h

/-- A text without line feeds suits every kind that is neither a word nor a closing tag. -/
theorem Suits.of_not_mem {kind : Kind} {t : Text} (h : '\n' ∉ t) (hword : kind ≠ .identifier)
    (hclose : kind ≠ .closeTag) : Suits kind t :=
  ⟨fun _ => h, fun hkind => absurd hkind hword, fun hkind => absurd hkind hclose⟩

/-- Readings of the two forms of one text, `c` its first character and `rest` what follows. -/
inductive Alike (c : Char) (rest : Text) : Reading → Reading → Prop
  /-- A lexeme of one kind up to the same cut. -/
  | one {kind : Kind} {n n' : Nat} (hcut : SameCut rest n n') (hinside : kind ≠ .inlineHtml)
      (htext : Suits kind (c :: rest.take n)) : Alike c rest (.one kind n) (.one kind n')
  /-- A closing tag before a line end, of which it takes the line feed alone. -/
  | closeTag {after : Text} (hc : c = '?') (hrest : rest = '>' :: '\n' :: after) :
      Alike c rest (.one .closeTag 2) (.one .closeTag 1)
  | docComment (body : Text) : Alike c rest (.docComment body) (.docComment (withReturns body))
  | fault (fault : Fault) : Alike c rest (.fault fault) (.fault fault)

namespace Alike

variable {c : Char} {rest : Text}

/-- Both branches of a guard may be compared by themselves. -/
theorem ite {p : Prop} [Decidable p] {r₁ r₁' r₂ r₂' : Reading} (hpos : p → Alike c rest r₁ r₁')
    (hneg : ¬p → Alike c rest r₂ r₂') :
    Alike c rest (if p then r₁ else r₂) (if p then r₁' else r₂') := by
  by_cases h : p
  · rw [if_pos h, if_pos h]
    exact hpos h
  · rw [if_neg h, if_neg h]
    exact hneg h

/-- A lexeme that holds no line feed. -/
theorem of_not_mem {kind : Kind} {n : Nat} (hc : c ≠ '\n') (h : '\n' ∉ rest.take n)
    (hinside : kind ≠ .inlineHtml) (hclose : kind ≠ .closeTag)
    (hword : kind = .identifier → Text.isNoWord (c :: rest.take n) = false) :
    Alike c rest (.one kind n) (.one kind n) := by
  refine .one (.of_not_mem h) hinside ⟨fun _ => ?_, hword, fun hkind => absurd hkind hclose⟩
  rw [List.mem_cons, not_or]
  exact ⟨Ne.symm hc, h⟩

end Alike

/-- Characters of a name are a word. -/
theorem isNoWord_of_isNameChar {t : Text} (h : t.all isNameChar = true) :
    Text.isNoWord t = false := by
  rw [List.all_eq_true] at h
  rw [Text.isNoWord, List.any_eq_false]
  intro d hd hout
  have hname := h d hd
  simp only [isOutsideWords, isBlank, Bool.or_eq_true, beq_iff_eq] at hout
  rcases hout with ((rfl | rfl) | rfl) | rfl <;> exact absurd hname (by decide)

/-- A word is read alike. -/
theorem alike_word (previous : Option Kind) {c : Char} (hc : isNameStart c = true) (rest : Text) :
    Alike c rest (.one (Word.read previous c rest).1 (Word.read previous c rest).2)
      (.one (Word.read previous c (withReturns rest)).1
        (Word.read previous c (withReturns rest)).2) := by
  have htail : (withReturns rest).takeWhile isNameChar = rest.takeWhile isNameChar :=
    Text.takeWhile_withReturns (by decide) (by decide) rest
  have hfree := Text.feed_notMem_take_takeWhile (p := isNameChar) (by decide) rest
  have hcut := SameCut.of_not_mem hfree
  have hplain : Alike c rest
      (.one (Word.kind previous (c :: rest.takeWhile isNameChar)) (rest.takeWhile isNameChar).length)
      (.one (Word.kind previous (c :: rest.takeWhile isNameChar))
        (rest.takeWhile isNameChar).length) := by
    have hfeed : c ≠ '\n' := by
      rintro rfl
      exact absurd hc (by decide)
    refine .of_not_mem hfeed hfree ?_ ?_ fun _ => ?_
    · unfold Word.kind
      grind
    · unfold Word.kind
      grind
    · rw [← List.prefix_iff_eq_take.1 (List.takeWhile_prefix isNameChar)]
      apply isNoWord_of_isNameChar
      rw [List.all_cons, List.all_takeWhile, Bool.and_true, isNameChar, hc, Bool.true_or]
  unfold Word.read
  dsimp only
  rw [htail, hcut.drop]
  by_cases hyield : Text.foldCase (c :: rest.takeWhile isNameChar) = Keyword.kwYield.spelling
  · have hfrom := Word.fromLength?_withReturns (rest.drop (rest.takeWhile isNameChar).length)
    rw [if_pos hyield, if_pos hyield]
    revert hfrom
    generalize Word.fromLength? (rest.drop (rest.takeWhile isNameChar).length) = length
    generalize Word.fromLength? (withReturns (rest.drop (rest.takeWhile isNameChar).length)) = length'
    intro hfrom
    cases hfrom with
    | none => exact hplain
    | some hfrom =>
      exact .one (hcut.add hfrom) (fun h => by cases h) (.of_mayBreak rfl fun h => by cases h)
  · rw [if_neg hyield, if_neg hyield]
    exact hplain

/-- A number is read alike. -/
theorem alike_number {c : Char} (hc : c ≠ '\n') (rest : Text) :
    Alike c rest
      (.one (Number.read (c :: rest)).1 ((Number.read (c :: rest)).2 - 1))
      (.one (Number.read (c :: withReturns rest)).1
        ((Number.read (c :: withReturns rest)).2 - 1)) := by
  obtain ⟨hsame, hfree⟩ := Number.read_withReturns (c :: rest)
  rw [Text.withReturns_cons hc] at hsame
  rw [hsame]
  have hkind : (Number.read (c :: rest)).1 = .integer ∨ (Number.read (c :: rest)).1 = .float := by
    unfold Number.read
    grind
  have hfree' : '\n' ∉ rest.take ((Number.read (c :: rest)).2 - 1) := by
    cases hlength : (Number.read (c :: rest)).2 with
    | zero => exact List.not_mem_nil
    | succ n =>
      rw [hlength, List.take_succ_cons, List.mem_cons, not_or] at hfree
      exact hfree.2
  rcases hkind with hkind | hkind <;> rw [hkind] <;>
    exact .of_not_mem hc hfree' (by decide) (by decide) fun h => by cases h

/-- An operator is read alike. -/
theorem alike_operator {c : Char} (hc : c ≠ '\n') (rest : Text) :
    Alike c rest (.one (Operator.read c rest).1 (Operator.read c rest).2)
      (.one (Operator.read c (withReturns rest)).1 (Operator.read c (withReturns rest)).2) := by
  have htable : ∀ entry ∈ Operator.longer,
      entry.2 ≠ .inlineHtml ∧ entry.2 ≠ .closeTag ∧ entry.2 ≠ .identifier := by decide
  have hsingle : Operator.single c ≠ .inlineHtml ∧ Operator.single c ≠ .closeTag ∧
      Operator.single c ≠ .identifier := by
    unfold Operator.single
    grind
  have hkind : (Operator.read c rest).1 ≠ .inlineHtml ∧ (Operator.read c rest).1 ≠ .closeTag ∧
      (Operator.read c rest).1 ≠ .identifier := by
    unfold Operator.read
    split
    · next hfound => exact htable _ (List.mem_of_find?_eq_some hfound)
    · exact hsingle
  obtain ⟨hinside, hclose, hword⟩ := hkind
  obtain ⟨hsame, hfree⟩ := Operator.read_withReturns hc rest
  rw [hsame]
  exact .of_not_mem hc hfree hinside hclose fun h => absurd h hword

/-- A run of white space takes the line feed that ends its line, and the return before it. -/
theorem alike_whitespace {c : Char} {rest : Text} (hc : c ≠ '\n') (hreturn : '\r' ∉ rest) :
    SameCut rest (whitespaceTail c rest) (whitespaceTail c (withReturns rest)) := by
  unfold whitespaceTail
  rw [if_neg hc, if_neg hc]
  dsimp only
  clear hc
  induction rest with
  | nil => exact SameCut.zero []
  | cons d rest ih =>
    rw [List.mem_cons, not_or] at hreturn
    by_cases hd : d = '\n'
    · subst hd
      exact (SameCut.zero rest).feed
    · rw [Text.withReturns_cons hd, List.takeWhile_cons, List.takeWhile_cons]
      by_cases hgap : isGap d = true
      · rw [if_pos hgap, if_pos hgap, List.length_cons, List.length_cons, List.drop_succ_cons,
          List.drop_succ_cons]
        have hnext := (ih hreturn.2).cons hd
        split <;> split <;> simp_all
      · have hfeed (t : Text) : (d :: t).head? ≠ some '\n' := by simpa using hd
        rw [if_neg hgap, if_neg hgap]
        simp only [List.length_nil, List.drop_zero]
        rw [if_neg (hfeed rest), if_neg (hfeed (withReturns rest))]
        exact SameCut.zero _

/-- A closing tag is read alike, but for the line feed that only the one form has right behind it. -/
theorem alike_closeTag {c : Char} {rest : Text}
    (h : (c == '?' && rest.head?.any (· == '>')) = true) :
    Alike c rest (.one .closeTag (if (rest.drop 1).head? = some '\n' then 2 else 1))
      (.one .closeTag (if ((withReturns rest).drop 1).head? = some '\n' then 2 else 1)) := by
  simp only [Bool.and_eq_true, beq_iff_eq, Option.any_eq_true, exists_eq_right] at h
  obtain ⟨rest, rfl⟩ := List.head?_eq_some_iff.1 h.2
  have hdrop : (withReturns ('>' :: rest)).drop 1 = withReturns rest := rfl
  have hcut : SameCut ('>' :: rest) 1 1 := (SameCut.zero rest).cons (by decide)
  have htext : Suits .closeTag (c :: ('>' :: rest).take 1) := by
    refine ⟨fun hkind => ?_, fun hkind => ?_, fun _ => ?_⟩
    · cases hkind
    · cases hkind
    · rw [h.1]
      rfl
  rw [hdrop, List.drop_succ_cons, List.drop_zero]
  cases rest with
  | nil => exact .one hcut (by decide) htext
  | cons d rest =>
    by_cases hd : d = '\n'
    · subst hd
      exact .closeTag h.1 rfl
    · have hne : some d ≠ some '\n' := by simpa using hd
      rw [Text.withReturns_cons hd, List.head?_cons, List.head?_cons, if_neg hne]
      exact .one hcut (by decide) htext

/-- A line comment is read alike. -/
theorem alike_lineComment {c : Char} {rest : Text} (hc : c ≠ '\n') (hreturn : '\r' ∉ rest) :
    Alike c rest (.one .comment (Comment.lineTail rest).length)
      (.one .comment (Comment.lineTail (withReturns rest)).length) := by
  obtain ⟨hreturns, hplain⟩ := Comment.lineTail_withReturns hreturn
  rw [hreturns, hplain]
  refine .of_not_mem hc ?_ (by decide) (by decide) fun h => by cases h
  rw [← List.prefix_iff_eq_take.1 (Comment.untilLineEnd_isPrefix rest)]
  exact Comment.feed_notMem_untilLineEnd rest

/-- A block comment, plain or doc, that is closed or not. -/
theorem alike_block {c : Char} {rest : Text}
    (h : (c == '/' && rest.head?.any (· == '*')) = true) :
    Alike c rest
      (if Comment.opensDoc rest then
        match Comment.untilClose (rest.drop 2) with
        | some body => .docComment body
        | none => .fault .unterminatedComment
      else
        match Comment.untilClose (rest.drop 1) with
        | some body => .one .comment (body.length + 3)
        | none => .fault .unterminatedComment)
      (if Comment.opensDoc (withReturns rest) then
        match Comment.untilClose ((withReturns rest).drop 2) with
        | some body => .docComment body
        | none => .fault .unterminatedComment
      else
        match Comment.untilClose ((withReturns rest).drop 1) with
        | some body => .one .comment (body.length + 3)
        | none => .fault .unterminatedComment) := by
  simp only [Bool.and_eq_true, Option.any_eq_true, beq_iff_eq, exists_eq_right] at h
  obtain ⟨rest, rfl⟩ := List.head?_eq_some_iff.1 h.2
  simp only [Comment.opensDoc_withReturns]
  refine .ite (fun hopens => ?_) fun _ => ?_
  · obtain ⟨body, rfl⟩ : ∃ body, rest = '*' :: body := by
      unfold Comment.opensDoc at hopens
      split at hopens
      · next heq => exact ⟨_, (List.cons.inj heq).2⟩
      · cases hopens
    have hdrop : (withReturns ('*' :: '*' :: body)).drop 2 = withReturns body := rfl
    rw [hdrop, Comment.untilClose_withReturns, List.drop_succ_cons, List.drop_succ_cons,
      List.drop_zero]
    cases Comment.untilClose body with
    | some body => exact .docComment body
    | none => exact .fault _
  · have hdrop : (withReturns ('*' :: rest)).drop 1 = withReturns rest := rfl
    rw [hdrop, Comment.untilClose_withReturns, List.drop_succ_cons, List.drop_zero]
    cases hclose : Comment.untilClose rest with
    | none => exact .fault _
    | some body =>
      obtain ⟨after, rfl⟩ := Comment.untilClose_eq_append hclose
      have hcut := (SameCut.of_append (body ++ ['*', '/']) after).cons (c := '*') (by decide)
      rw [Text.withReturns_append, List.length_append, List.length_append] at hcut
      exact .one hcut (by decide) (.of_mayBreak rfl (by decide))

/-- A string is read alike, closed or not. -/
theorem alike_quoted {c : Char} (hquote : isQuote c = true) (rest : Text) :
    Alike c rest
      (match Literal.quotedTail? c rest with
        | some more => .one .quoted more
        | none => .fault .unterminatedString)
      (match Literal.quotedTail? c (withReturns rest) with
        | some more => .one .quoted more
        | none => .fault .unterminatedString) := by
  have hfeed : c ≠ '\n' := by
    rintro rfl
    exact absurd hquote (by decide)
  have hreturn : c ≠ '\r' := by
    rintro rfl
    exact absurd hquote (by decide)
  have htail := Literal.quotedTail?_withReturns hfeed hreturn rest
  revert htail
  generalize Literal.quotedTail? c rest = tail
  generalize Literal.quotedTail? c (withReturns rest) = tail'
  intro htail
  cases htail with
  | none => exact .fault _
  | some hcut => exact .one hcut (by decide) (.of_mayBreak rfl (by decide))

/-- What is none of the other constructs is a heredoc or an operator. -/
theorem alike_sign {c : Char} {rest : Text} (hc : c ≠ '\n') (hreturn : '\r' ∉ rest) :
    Alike c rest
      (match (if c == '<' then Literal.heredoc? rest else none) with
        | some (.ok more) => .one .heredoc more
        | some (.error fault) => .fault fault
        | none => .one (Operator.read c rest).1 (Operator.read c rest).2)
      (match (if c == '<' then Literal.heredoc? (withReturns rest) else none) with
        | some (.ok more) => .one .heredoc more
        | some (.error fault) => .fault fault
        | none => .one (Operator.read c (withReturns rest)).1 (Operator.read c (withReturns rest)).2) := by
  by_cases hless : (c == '<') = true
  · have hheredoc := Literal.heredoc?_withReturns hreturn
    rw [if_pos hless, if_pos hless]
    revert hheredoc
    generalize Literal.heredoc? rest = outcome
    generalize Literal.heredoc? (withReturns rest) = outcome'
    intro hheredoc
    cases hheredoc with
    | none => exact alike_operator hc rest
    | some houtcome =>
      cases houtcome with
      | ok hcut => exact .one hcut (by decide) (.of_mayBreak rfl (by decide))
      | error fault => exact .fault fault
  · rw [if_neg hless, if_neg hless]
    exact alike_operator hc rest

/-- Whatever stands at the front of the code, the two forms are read alike. -/
theorem alike_read (previous : Option Kind) {c : Char} {rest : Text} (hc : c ≠ '\n')
    (hreturn : '\r' ∉ rest) :
    Alike c rest (read previous c rest) (read previous c (withReturns rest)) := by
  have hnext {p : Char → Bool} (hp : p '\r' = p '\n') :
      (withReturns rest).head?.any p = rest.head?.any p := Text.any_head?_withReturns hp rest
  dsimp only [read]
  simp only [hnext (p := (· == '>')) (by decide), hnext (p := (· == '[')) (by decide),
    hnext (p := (· == '/')) (by decide), hnext (p := (· == '*')) (by decide),
    hnext (p := isNameStart) (by decide), hnext (p := Char.isDigit) (by decide)]
  refine .ite (fun _ => ?_) fun _ => ?_
  · exact .one (alike_whitespace hc hreturn) (by decide) (.of_mayBreak rfl (by decide))
  refine .ite alike_closeTag fun _ => ?_
  refine .ite (fun hattribute => ?_) fun _ => ?_
  · simp only [Bool.and_eq_true, Option.any_eq_true, beq_iff_eq, exists_eq_right] at hattribute
    obtain ⟨rest, rfl⟩ := List.head?_eq_some_iff.1 hattribute.2
    exact .of_not_mem hc (by simp) (by decide) (by decide) fun h => by cases h
  refine .ite (fun _ => alike_lineComment hc hreturn) fun _ => ?_
  refine .ite alike_block fun _ => ?_
  refine .ite (fun _ => ?_) fun _ => ?_
  · have htail : (withReturns rest).takeWhile isNameChar = rest.takeWhile isNameChar :=
      Text.takeWhile_withReturns (by decide) (by decide) rest
    rw [htail]
    have hfree := Text.feed_notMem_take_takeWhile (p := isNameChar) (by decide) rest
    exact .of_not_mem hc hfree (by decide) (by decide) fun h => by cases h
  refine .ite (fun hname => alike_word previous hname rest) fun _ => ?_
  refine .ite (fun _ => alike_number hc rest) fun _ => ?_
  refine .ite (fun hquote => alike_quoted hquote rest) fun _ => ?_
  exact alike_sign hc hreturn

/-- A line end between tokens is one lexeme in either form. -/
theorem read_lineEnd (previous : Option Kind) (rest : Text) :
    read previous '\n' rest = .one .whitespace 0 ∧
      read previous '\r' ('\n' :: rest) = .one .whitespace 1 :=
  ⟨rfl, rfl⟩

end Scan

end PhpLint

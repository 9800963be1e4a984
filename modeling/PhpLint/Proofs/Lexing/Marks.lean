import PhpLint.Proofs.Lexing.Construct
import PhpLint.Proofs.Lexing.Positions
import PhpLint.Proofs.Text.Lines

/-!
# Where slashes and hashes stand

A comment starts with a slash or a hash, but not each of these characters starts one.  `Scan.Mark`
lists the places where a lexeme can hold such a character, each with what the scan knows of the text
behind it, and `Occurs.mark` says that the list is complete: in code outside of comments and strings
the character stands in front of an operator, and what follows starts no comment.

A stretch of text without these characters is **plain**.  The length of most lexemes is found piece
by piece, and a text is plain up to a sum of lengths when it is plain up to one of them and from
there up to the other (`plain_take_add`).
-/

namespace PhpLint

/-- A character that a comment may start with. -/
def isSlashOrHash (c : Char) : Bool := c == '/' || c == '#'

namespace Text

/-- The text holds neither a slash nor a hash. -/
def Plain (t : Text) : Prop := ∀ c ∈ t, isSlashOrHash c = false

variable {s t : Text}

/-- A text is plain when its first character and the others are. -/
theorem plain_cons {c : Char} : Plain (c :: t) ↔ isSlashOrHash c = false ∧ Plain t :=
  List.forall_mem_cons

theorem plain_nil : Plain [] := by simp [Plain]

/-- A character that is neither of the two is plain by itself. -/
theorem plain_singleton {c : Char} (h : isSlashOrHash c = false) : Plain [c] :=
  plain_cons.2 ⟨h, plain_nil⟩

/-- A text in which a search finds neither of the two is plain. -/
theorem plain_of_any (h : t.any isSlashOrHash = false) : Plain t := fun c hc =>
  Bool.eq_false_iff.2 (List.any_eq_false.1 h c hc)

theorem plain_append : Plain (s ++ t) ↔ Plain s ∧ Plain t := List.forall_mem_append

/-- A class without the two characters has no other that is one of them. -/
theorem plain_of_class {p : Char → Bool} (hslash : p '/' = false) (hhash : p '#' = false) {c : Char}
    (hp : p c = true) : isSlashOrHash c = false := by
  rw [isSlashOrHash, Bool.or_eq_false_iff, beq_eq_false_iff_ne, beq_eq_false_iff_ne]
  refine ⟨?_, ?_⟩
  · rintro rfl
    rw [hslash] at hp
    cases hp
  · rintro rfl
    rw [hhash] at hp
    cases hp

/-- A run of a class without the two characters is plain. -/
theorem plain_takeWhile {p : Char → Bool} (hslash : p '/' = false) (hhash : p '#' = false)
    (t : Text) : Plain (t.takeWhile p) := fun _ hc =>
  plain_of_class hslash hhash (List.mem_takeWhile_imp hc)

theorem take_length_takeWhile (p : Char → Bool) (t : Text) :
    t.take (t.takeWhile p).length = t.takeWhile p :=
  (List.prefix_iff_eq_take.1 (List.takeWhile_prefix p)).symm

/-- A run of characters of a plain class is plain. -/
theorem plain_take_run {p : Char → Bool} (hslash : p '/' = false) (hhash : p '#' = false)
    (t : Text) : Plain (t.take (t.takeWhile p).length) := by
  rw [take_length_takeWhile]
  exact plain_takeWhile hslash hhash t

/-- Two plain stretches in a row are plain. -/
theorem plain_take_add {m n : Nat} (hm : Plain (t.take m)) (hn : Plain ((t.drop m).take n)) :
    Plain (t.take (m + n)) := by
  rw [List.take_add]
  exact plain_append.2 ⟨hm, hn⟩

/-- Folding the letters keeps slashes and hashes. -/
theorem plain_of_foldCase (h : Plain (foldCase t)) : Plain t := by
  intro c hc
  by_contra hmark
  have hfold : c.toLower = c := by
    rw [Bool.not_eq_false, isSlashOrHash, Bool.or_eq_true, beq_iff_eq, beq_iff_eq] at hmark
    rcases hmark with rfl | rfl <;> decide
  have hmem : c ∈ foldCase t := List.mem_map.2 ⟨c, hc, hfold⟩
  exact hmark (h c hmem)

end Text

namespace Scan

open Text (Plain plain_cons plain_nil plain_singleton plain_take_run plain_take_add)

/-! ## Lexemes in plain text -/

/-- An open tag is plain. -/
theorem plain_openTag {t : Text} {n : Nat} (h : openTagLength? t = some n) : Plain (t.take n) := by
  unfold openTagLength? at h
  split at h
  · next hecho =>
    obtain rfl := Option.some.inj h
    obtain ⟨rest, rfl⟩ := Text.startsWith_iff.1 hecho
    exact Text.plain_of_any rfl
  split at h
  · next hphp =>
    have hword : Plain (t.take 5) := by
      apply Text.plain_of_foldCase
      rw [hphp]
      exact Text.plain_of_any rfl
    split at h
    · next rest hreturn =>
      obtain rfl := Option.some.inj h
      refine plain_take_add (m := 5) (n := 2) hword ?_
      rw [hreturn]
      exact plain_cons.2 ⟨rfl, plain_singleton rfl⟩
    · next c rest _ hnext =>
      obtain rfl := Option.some.inj h
      split
      · next hblank =>
        refine plain_take_add (m := 5) (n := 1) hword ?_
        rw [hnext]
        have hplain : isSlashOrHash c = false := by
          simp only [isBlank, Bool.or_eq_true, beq_iff_eq] at hblank
          rcases hblank with (rfl | rfl) | rfl <;> rfl
        exact plain_singleton hplain
      · exact hword
    · obtain rfl := Option.some.inj h
      exact hword
  · cases h

/-- White space is plain. -/
theorem plain_whitespace (c : Char) (rest : Text) : Plain (rest.take (whitespaceTail c rest)) := by
  have hgap : Plain (rest.take (rest.takeWhile isGap).length) := plain_take_run rfl rfl rest
  unfold whitespaceTail
  split
  · exact plain_nil
  · dsimp only
    split
    · next hfeed =>
      refine plain_take_add hgap ?_
      obtain ⟨t, ht⟩ := List.head?_eq_some_iff.1 hfeed
      rw [ht]
      exact plain_singleton rfl
    · exact hgap

/-- The second word of `yield from` is plain, and so is the white space before it. -/
theorem plain_from {t : Text} {n : Nat} (h : Word.fromLength? t = some n) : Plain (t.take n) := by
  unfold Word.fromLength? at h
  dsimp only at h
  split at h
  · next hfrom =>
    obtain rfl := Option.some.inj h
    refine plain_take_add (plain_take_run (by decide) (by decide) t) ?_
    apply Text.plain_of_foldCase
    rw [hfrom.2.1]
    exact Text.plain_of_any rfl
  · cases h

theorem plain_digits (t : Text) : Plain (t.take (t.takeWhile Number.isDigitOrMark).length) :=
  plain_take_run (by decide) (by decide) t

/-- An integer in another base is plain. -/
theorem plain_based {t : Text} {n : Nat} (h : Number.basedLength? t = some n) :
    Plain (t.take n) := by
  unfold Number.basedLength? at h
  split at h
  · next c rest =>
    split at h
    · next hletter =>
      obtain rfl := Option.some.inj h
      have hfront : Plain ['0', c] := by
        rcases hletter with rfl | rfl | rfl | rfl <;> exact Text.plain_of_any rfl
      exact plain_take_add (m := 2) hfront (plain_take_run (by decide) (by decide) rest)
    · cases h
  · cases h

/-- A fraction is plain. -/
theorem plain_fraction (t : Text) : Plain (t.take (Number.fractionLength t)) := by
  unfold Number.fractionLength
  split
  · next rest =>
    split
    · exact plain_take_add (m := 1) (plain_singleton rfl) (plain_digits rest)
    · exact plain_nil
  · exact plain_nil

/-- An exponent is plain. -/
theorem plain_exponent (t : Text) : Plain (t.take (Number.exponentLength t)) := by
  unfold Number.exponentLength
  split
  · next c rest =>
    split
    · next hletter =>
      have hsign : Plain
          (rest.take (if rest.head? = some '+' ∨ rest.head? = some '-' then 1 else 0)) := by
        split
        · next hsign =>
          rcases hsign with hsign | hsign <;>
            (obtain ⟨t, rfl⟩ := List.head?_eq_some_iff.1 hsign; exact plain_singleton rfl)
        · exact plain_nil
      dsimp only
      generalize (if rest.head? = some '+' ∨ rest.head? = some '-' then 1 else 0) = sign at hsign ⊢
      split
      · have hletter : Plain ((c :: rest).take 1) := by
          rcases hletter with rfl | rfl <;> exact plain_singleton rfl
        refine plain_take_add (plain_take_add hletter hsign) ?_
        rw [Nat.add_comm, List.drop_succ_cons]
        exact plain_digits _
      · exact plain_nil
    · exact plain_nil
  · exact plain_nil

/-- A number is plain. -/
theorem plain_number (t : Text) : Plain (t.take (Number.read t).2) := by
  unfold Number.read
  split
  · next hbased => exact plain_based hbased
  · exact plain_take_add (plain_take_add (plain_digits t) (plain_fraction _)) (plain_exponent _)

theorem plain_gap {c : Char} (h : isGap c = true ∨ c = '\n') : isSlashOrHash c = false := by
  simp only [isGap, isBlank, Bool.or_eq_true, beq_iff_eq] at h
  rcases h with ((rfl | rfl) | rfl) | rfl <;> rfl

/-- Of the pieces of a doc comment's body only tags and texts hold slashes or hashes. -/
theorem plain_docBody {content : Bool} {t : Text} {l : Lexeme} (h : l ∈ Comment.docBody content t) :
    l.kind.isDocContent = true ∨ Plain l.text := by
  fun_induction Comment.docBody content t with
  | case1 => cases h
  | case2 content rest ih =>
    rcases List.mem_cons.1 h with rfl | h
    · exact .inr (plain_singleton rfl)
    · exact ih h
  | case3 content c rest hc hreturn ih =>
    rcases List.mem_cons.1 h with rfl | h
    · rw [Bool.and_eq_true, decide_eq_true_eq, beq_iff_eq] at hreturn
      obtain ⟨rfl, hfeed⟩ := hreturn
      obtain ⟨t, rfl⟩ := List.head?_eq_some_iff.1 hfeed
      exact .inr (plain_cons.2 ⟨rfl, plain_singleton rfl⟩)
    · exact ih h
  | case4 content c rest hc hreturn hgap tail ih =>
    rcases List.mem_cons.1 h with rfl | h
    · exact .inr (plain_cons.2 ⟨plain_gap (.inl hgap), Text.plain_takeWhile rfl rfl rest⟩)
    · exact ih h
  | case5 content c rest hc hreturn hgap hstar ih =>
    rcases List.mem_cons.1 h with rfl | h
    · rw [Bool.and_eq_true, decide_eq_true_eq] at hstar
      obtain rfl := hstar.1
      exact .inr (plain_singleton rfl)
    · exact ih h
  | case6 | case7 =>
    rename_i ih
    rcases List.mem_cons.1 h with rfl | h
    · exact .inl rfl
    · exact ih h

/-! ## The other lexemes -/

/-- What stands behind a line comment: at most a carriage return, then the end of the line, of the
code or of the source. -/
theorem exists_stop (rest : Text) :
    ∃ returns stop, rest = Comment.lineTail rest ++ returns ++ stop ∧
      (returns = [] ∨ returns = ['\r']) ∧
      (stop = [] ∨ (∃ t, stop = '\n' :: t) ∨ ∃ t, stop = '?' :: '>' :: t) := by
  have hline (t : Text) : ∃ stop, t = Comment.untilLineEnd t ++ stop ∧
      (stop = [] ∨ (∃ t, stop = '\n' :: t) ∨ ∃ t, stop = '?' :: '>' :: t) := by
    fun_induction Comment.untilLineEnd t with
    | case1 => exact ⟨[], rfl, .inl rfl⟩
    | case2 rest => exact ⟨'\n' :: rest, rfl, .inr (.inl ⟨rest, rfl⟩)⟩
    | case3 c rest _ hclose =>
      rw [Bool.and_eq_true, decide_eq_true_eq, beq_iff_eq] at hclose
      obtain ⟨rfl, hnext⟩ := hclose
      obtain ⟨t, rfl⟩ := List.head?_eq_some_iff.1 hnext
      exact ⟨_, rfl, .inr (.inr ⟨t, rfl⟩)⟩
    | case4 c rest _ _ ih =>
      obtain ⟨stop, hrest, hstop⟩ := ih
      exact ⟨stop, congrArg (c :: ·) hrest, hstop⟩
  obtain ⟨stop, hrest, hstop⟩ := hline rest
  rcases Text.dropReturn_cases (Comment.untilLineEnd rest) with hdrop | hdrop
  · refine ⟨[], stop, ?_, .inl rfl, hstop⟩
    rw [List.append_nil, Comment.lineTail, hdrop]
    exact hrest
  · refine ⟨['\r'], stop, ?_, .inr rfl, hstop⟩
    rw [Comment.lineTail, hdrop]
    exact hrest

/-- The kinds of lexeme that hold text of any sort and are no comment. -/
def holdsText : Kind → Bool
  | .inlineHtml | .quoted | .heredoc | .docTag | .docText => true
  | _ => false

/-- A slash or a hash `c` of a lexeme, with the text of the lexeme before and behind it, and the
lexemes after it. -/
inductive Mark (l : Lexeme) (after : List Lexeme) (before : Text) (c : Char) (behind : Text) : Prop
  | text (hkind : holdsText l.kind = true)
  | lineComment {returns stop : Text} (hkind : l.kind = .comment)
      (hafter : Lexeme.spell after = returns ++ stop) (hreturns : returns = [] ∨ returns = ['\r'])
      (hstop : stop = [] ∨ (∃ t, stop = '\n' :: t) ∨ ∃ t, stop = '?' :: '>' :: t)
  | blockComment {front : Text} (hkind : l.kind = .comment) (htext : l.text = front ++ ['*', '/'])
  | docOpener (hc : c = '/') (hbehind : behind = ['*', '*'])
  | docCloser (hkind : l.kind = .closes .docComment) (hc : c = '/') (hbefore : before = ['*'])
      (hbehind : behind = [])
  | operator (hhash : c = '#' → (behind ++ Lexeme.spell after).head? = some '[')
      (hslash : c = '/' → (behind ++ Lexeme.spell after).head? ≠ some '/' ∧
        (behind ++ Lexeme.spell after).head? ≠ some '*')

variable {l : Lexeme} {after : List Lexeme} {before behind : Text} {c : Char}

/-- A lexeme with a slash or a hash in it is not plain. -/
theorem not_plain (hl : l.text = before ++ c :: behind) (hc : isSlashOrHash c = true) :
    ¬Plain l.text := by
  intro hplain
  have hfalse := hplain c (by simp [hl])
  rw [hc] at hfalse
  cases hfalse

/-- A lexeme whose whole length is known is plain when its text is up to there. -/
theorem plain_cons_take {c : Char} {rest : Text} {n : Nat} (hc : isSlashOrHash c = false)
    (h : Plain ((c :: rest).take n)) : Plain (c :: rest.take (n - 1)) := by
  cases n with
  | zero => exact plain_singleton hc
  | succ n => exact h

theorem plain_word {c : Char} {rest : Text} (hc : isNameStart c = true) :
    Plain (c :: rest.take (rest.takeWhile isNameChar).length) :=
  plain_cons.2
    ⟨Text.plain_of_class (by decide) (by decide) hc, plain_take_run (by decide) (by decide) rest⟩

/-- Before plain text a slash or hash stands in front. -/
theorem eq_of_plain_tail {d : Char} {t : Text} (h : d :: t = before ++ c :: behind) (ht : Plain t)
    (hc : isSlashOrHash c = true) : before = [] ∧ d = c ∧ t = behind := by
  cases before with
  | nil => exact ⟨rfl, List.cons.inj h⟩
  | cons e before =>
    have hfalse := ht c (by simp [(List.cons.inj h).2])
    rw [hc] at hfalse
    cases hfalse

/-- What closes a comment has one slash, its last character. -/
theorem eq_of_close (h : ['*', '/'] = before ++ c :: behind) (hc : isSlashOrHash c = true) :
    before = ['*'] ∧ c = '/' ∧ behind = [] := by
  cases before with
  | nil =>
    obtain ⟨rfl, -⟩ := List.cons.inj h
    cases hc
  | cons d before =>
    obtain ⟨rfl, hrest⟩ := List.cons.inj h
    obtain ⟨rfl, rfl, rfl⟩ := eq_of_plain_tail hrest plain_nil hc
    exact ⟨rfl, rfl, rfl⟩

/-- In an operator of the table only a slash can be one, and an equals sign stands behind it. -/
theorem eq_of_mem_longer {spelling : Text} {k : Kind} (hentry : (spelling, k) ∈ Operator.longer)
    (hspelling : spelling = before ++ c :: behind) (hc : isSlashOrHash c = true) :
    c = '/' ∧ behind = ['='] := by
  have htable : ∀ entry ∈ Operator.longer, entry.1 = ['/', '='] ∨
      entry.1.any isSlashOrHash = false := by decide
  rcases htable _ hentry with heq | hplain
  · obtain rfl : spelling = ['/', '='] := heq
    obtain ⟨-, rfl, rfl⟩ := eq_of_plain_tail hspelling (plain_singleton rfl) hc
    exact ⟨rfl, rfl⟩
  · exact absurd hc (List.any_eq_false.1 hplain c (by simp [hspelling]))

/-- A slash or hash in code is that of a comment or a string, or it is in front of an operator. -/
theorem Construct.mark {previous : Option Kind} {d : Char} {rest : Text} {k : Kind} {n : Nat}
    (h : Construct previous d rest k n) (hl : d :: rest.take n = before ++ c :: behind)
    (hc : isSlashOrHash c = true) (hafter : Lexeme.spell after = rest.drop n) :
    Mark ⟨k, d :: rest.take n⟩ after before c behind := by
  have hmark : ¬Plain (d :: rest.take n) := not_plain (l := ⟨k, d :: rest.take n⟩) hl hc
  cases h with
  | whitespace hgap =>
    exact absurd (plain_cons.2 ⟨plain_gap hgap, plain_whitespace d rest⟩) hmark
  | closeTag hd hnext =>
    obtain rfl := hd
    obtain ⟨t, rfl⟩ := List.head?_eq_some_iff.1 hnext
    refine absurd (plain_cons.2 ⟨rfl, ?_⟩) hmark
    split
    · next hfeed =>
      obtain ⟨t', ht⟩ := List.head?_eq_some_iff.1 hfeed
      obtain rfl : t = '\n' :: t' := ht
      exact plain_cons.2 ⟨rfl, plain_singleton rfl⟩
    · exact plain_singleton rfl
  | attributeSign hd hnext =>
    obtain ⟨t, rfl⟩ := List.head?_eq_some_iff.1 hnext
    obtain ⟨-, rfl, rfl⟩ := eq_of_plain_tail hl (plain_singleton rfl) hc
    refine .operator (fun _ => rfl) fun hslash => ?_
    rw [hd] at hslash
    cases hslash
  | hashComment | slashComment =>
    obtain ⟨returns, stop, hrest, hreturns, hstop⟩ := exists_stop rest
    refine .lineComment rfl ?_ hreturns hstop
    rw [hafter]
    conv_lhs =>
      arg 2
      rw [hrest]
    rw [List.append_assoc, List.drop_left]
  | @blockComment body hd hnext hclose =>
    obtain ⟨t, rfl⟩ := List.head?_eq_some_iff.1 hnext
    obtain ⟨behind, hbody⟩ := Comment.untilClose_eq_append hclose
    rw [List.drop_one, List.tail_cons] at hbody
    have htake : (body ++ ['*', '/'] ++ behind).take (body.length + 2) = body ++ ['*', '/'] :=
      List.take_left' (by simp)
    have htext : d :: ('*' :: t).take (body.length + 3) = d :: '*' :: body ++ ['*', '/'] := by
      rw [hbody, List.take_succ_cons, htake]
      rfl
    exact .blockComment rfl htext
  | variableName hd =>
    obtain rfl := hd
    exact absurd (plain_cons.2 ⟨rfl, plain_take_run (by decide) (by decide) rest⟩) hmark
  | identifier hd => exact absurd (plain_word hd) hmark
  | keyword hd => exact absurd (plain_word hd) hmark
  | yieldFrom hd hfrom =>
    refine absurd (plain_cons.2 ⟨Text.plain_of_class (by decide) (by decide) hd, ?_⟩) hmark
    exact plain_take_add (plain_take_run (by decide) (by decide) rest) (plain_from hfrom)
  | number hd =>
    have hplain : isSlashOrHash d = false := by
      rcases hd with hd | rfl
      · exact Text.plain_of_class (by decide) (by decide) hd
      · rfl
    exact absurd (plain_cons_take hplain (plain_number (d :: rest))) hmark
  | quoted => exact .text rfl
  | heredoc => exact .text rfl
  | @longer spelling _ hentry hspelling =>
    have hne : spelling ≠ [] := by
      have htable : ∀ entry ∈ Operator.longer, entry.1 ≠ [] := by decide
      exact htable _ hentry
    obtain ⟨e, spelling, rfl⟩ := List.exists_cons_of_ne_nil hne
    obtain ⟨t, ht⟩ := hspelling
    obtain ⟨rfl, rfl⟩ := List.cons.inj ht
    have htake : (spelling.append t).take ((e :: spelling).length - 1) = spelling :=
      List.take_left
    obtain ⟨rfl, rfl⟩ := eq_of_mem_longer hentry ((congrArg (e :: ·) htake.symm).trans hl) hc
    exact .operator (fun h => by cases h) fun _ => ⟨by simp, by simp⟩
  | single hk hhash hquote hslash =>
    obtain ⟨-, rfl, rfl⟩ := eq_of_plain_tail hl plain_nil hc
    rw [List.drop_zero] at hafter
    refine .operator (fun h => absurd h hhash) fun h => ?_
    rw [List.take_zero, List.nil_append, hafter]
    exact hslash h

/-- Every slash and every hash of a scan stands in one of these places. -/
theorem Occurs.mark (h : Occurs l after) (hl : l.text = before ++ c :: behind)
    (hc : isSlashOrHash c = true) : Mark l after before c behind := by
  have hmark := not_plain hl hc
  cases h with
  | @openTag d rest n htag =>
    have hplain := plain_openTag htag
    obtain ⟨n, rfl⟩ := Nat.exists_eq_succ_of_ne_zero (openTagLength?_pos htag).ne'
    exact absurd hplain hmark
  | inlineHtml => exact .text rfl
  | code hconstruct hfault => exact hconstruct.mark hl hc (reads_ofText hfault).spell_eq
  | @doc previous body t front back l hcloses hpiece hfault =>
    have hmem : l ∈ Comment.doc body := by simp [hpiece]
    rcases Comment.mem_doc_iff.1 hmem with rfl | hbody | rfl
    · obtain ⟨-, rfl, rfl⟩ :=
        eq_of_plain_tail hl (plain_cons.2 ⟨rfl, plain_singleton rfl⟩) hc
      exact .docOpener rfl rfl
    · rcases plain_docBody hbody with hcontent | hplain
      · refine .text ?_
        revert hcontent
        cases l.kind <;> simp [Kind.isDocContent, holdsText]
      · exact absurd hplain hmark
    · obtain ⟨hbefore, hslash, hbehind⟩ := eq_of_close hl hc
      exact .docCloser rfl hslash hbefore hbehind

end Scan

/-! ## In a source -/

/-- A character that lexemes spell stands in one of them. -/
theorem Lexeme.exists_of_spell_eq {ls : List Lexeme} {front rest : Text} {c : Char}
    (h : spell ls = front ++ c :: rest) :
    ∃ xs l ys before behind, ls = xs ++ l :: ys ∧ front = spell xs ++ before ∧
      l.text = before ++ c :: behind ∧ rest = behind ++ spell ys := by
  induction ls generalizing front with
  | nil => simp at h
  | cons l ls ih =>
    rw [spell_cons] at h
    rcases List.append_eq_append_iff.1 h with ⟨y, hfront, hls⟩ | ⟨y, hl, hrest⟩
    · obtain ⟨xs, l', ys, before, behind, rfl, rfl, hl', hrest⟩ := ih hls
      exact ⟨l :: xs, l', ys, before, behind, rfl, by simp [hfront], hl', hrest⟩
    · cases y with
      | nil =>
        obtain ⟨xs, l', ys, before, behind, rfl, hxs, hl', hrest⟩ := @ih [] hrest.symm
        refine ⟨l :: xs, l', ys, before, behind, rfl, ?_, hl', hrest⟩
        rw [spell_cons, List.append_assoc, ← hxs, hl]
        simp
      | cons d y =>
        obtain ⟨rfl, rfl⟩ := List.cons.inj hrest
        exact ⟨[], l, ls, front, y, rfl, rfl, hl, rfl⟩

/-- What stands in a source before another character than the mark starts with the mark. -/
theorem Token.exists_of_source_eq {source front rest : Text} {c : Char} (hc : c ≠ byteOrderMark)
    (h : source = front ++ c :: rest) :
    ∃ before, front = mark source ++ before ∧ withoutMark source = before ++ c :: rest := by
  have hsource := mark_append_withoutMark source
  conv at hsource => rhs; rw [h]
  rcases List.append_eq_append_iff.1 hsource with ⟨before, hfront, hrest⟩ | ⟨y, hmark, hrest⟩
  · exact ⟨before, hfront, hrest⟩
  · cases y with
    | nil => exact ⟨[], by simpa using hmark.symm, hrest.symm⟩
    | cons d y =>
      obtain ⟨rfl, -⟩ := List.cons.inj hrest
      have hmem : c ∈ mark source := by simp [hmark]
      unfold mark at hmem
      split at hmem
      · exact absurd (List.mem_singleton.1 hmem) hc
      · cases hmem

/-- Every slash and every hash of a source stands in a token, as `Scan.Mark` says. -/
theorem TokenStream.exists_mark {source front rest : Text} {c : Char} {s : TokenStream}
    (h : ofSource source = .ok s) (hc : isSlashOrHash c = true)
    (hsource : source = front ++ c :: rest) :
    ∃ i t start after before behind, s.token? i = some t ∧
      Text.splitBytes? t.offset source = some (start, t.content ++ Lexeme.spell after) ∧
      front = start ++ before ∧ t.content = before ++ c :: behind ∧
      rest = behind ++ Lexeme.spell after ∧
      Scan.Mark ⟨t.kind, t.content⟩ after before c behind := by
  obtain ⟨ls, hlaid, hoccurs⟩ := exists_occurs h
  have hmark : c ≠ Token.byteOrderMark := by
    rintro rfl
    revert hc
    decide
  obtain ⟨u, hfront, hrest⟩ := Token.exists_of_source_eq hmark hsource
  rw [← hlaid.reads.spell_eq] at hrest
  obtain ⟨xs, l, ys, before, behind, rfl, rfl, hl, rfl⟩ := Lexeme.exists_of_spell_eq hrest
  have hlexeme : (xs ++ l :: ys)[xs.length]? = some l := by simp
  have htoken := hlaid.token?_eq xs.length
  rw [hlexeme, Option.map_some, List.take_left] at htoken
  have hsplit := hlaid.splitBytes?_offset htoken
  have hoccurs := hoccurs xs.length l hlexeme
  have hafter : (xs ++ l :: ys).drop (xs.length + 1) = ys := by simp
  rw [List.take_left, hafter] at hsplit
  rw [hafter] at hoccurs
  refine ⟨xs.length, _, Token.mark source ++ Lexeme.spell xs, ys, before, behind, htoken, hsplit, ?_,
    hl, rfl, hoccurs.mark hl hc⟩
  rw [hfront, List.append_assoc]

end PhpLint

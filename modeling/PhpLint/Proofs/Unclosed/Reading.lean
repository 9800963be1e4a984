import PhpLint.Proofs.CloseTag.Reading

/-!
# Constructs that stay open

A string, a comment or a heredoc that the source does not close is a fault, and the reader that answers
one has searched for the end and not found it.  Here is what that says of the source: no quote that
counts follows, no star and slash, no line with the marker (`Unterminated`).

A fault ends the scan, so it matters what the readers before it have looked at.  A construct starts with
a stop, and a reading that ends before a stop has not looked past it: it is what would be read if the
source ended there (`steady_cut`).
-/

namespace PhpLint

variable {w z : Text} {c m : Char} {f : Fault}

/-! ## Texts that close nothing -/

/-- A text that ends in no escape: each backslash takes the character behind it. -/
inductive Escaped : Text → Prop
  | nil : Escaped []
  | plain {c : Char} {t : Text} (hc : c ≠ '\\') (ht : Escaped t) : Escaped (c :: t)
  | pair {c : Char} {t : Text} (ht : Escaped t) : Escaped ('\\' :: c :: t)

/-- The start of a line in a text that starts with a line. -/
def StartsLine (before : Text) : Prop := before = [] ∨ ∃ front, before = front ++ ['\n']

/-- Where a line starts behind a text, the last character is a line feed, also when it is the only one.
-/
theorem StartsLine.of_cons {before : Text} (h : StartsLine (c :: before)) :
    (before = [] → c = '\n') ∧ StartsLine before := by
  obtain ⟨front, hfront⟩ := h.resolve_left (List.cons_ne_nil c before)
  cases front with
  | nil =>
    obtain ⟨rfl, rfl⟩ := List.cons.inj hfront
    exact ⟨fun _ => rfl, .inl rfl⟩
  | cons d front =>
    obtain ⟨-, rfl⟩ := List.cons.inj hfront
    refine ⟨fun hnil => ?_, .inr ⟨front, rfl⟩⟩
    simp at hnil

/-- The marker of a heredoc stands at the front of a line, behind blanks, and no name goes on. -/
def ClosesHeredoc (marker line : Text) : Prop :=
  ∃ blanks after, line = blanks ++ (marker ++ after) ∧ (∀ c ∈ blanks, isBlank c = true) ∧
    after.head?.any isNameChar = false

/-- What a text starts with and does not close. -/
inductive Unterminated : Fault → Text → Prop
  /-- A quote that does not occur again, read with escapes. -/
  | string {quote : Char} {rest : Text} (hquote : Scan.isQuote quote = true)
      (hopen : ∀ before after, rest = before ++ quote :: after → ¬Escaped before) :
      Unterminated .unterminatedString (quote :: rest)
  /-- A slash and a star behind which no star and slash follow. -/
  | comment {rest : Text} (hopen : ¬['*', '/'] <:+: rest) :
      Unterminated .unterminatedComment ('/' :: '*' :: rest)
  /-- The header of a heredoc, and no line behind it that closes it. -/
  | heredoc {marker header body : Text} (hheader : Literal.IsHeader marker header)
      (hopen : ∀ before line, body = before ++ line → StartsLine before →
        ¬ClosesHeredoc marker line) :
      Unterminated .unterminatedHeredoc ("<<<".toList ++ (header ++ body))

namespace Literal

variable {quote : Char}

/-- A quote behind a text that ends in no escape is found, or one before it. -/
theorem isSome_quotedTail? (hquote : quote ≠ '\\') {before : Text} (h : Escaped before)
    (after : Text) : (quotedTail? quote (before ++ quote :: after)).isSome = true := by
  induction h with
  | nil =>
    rw [List.nil_append, quotedTail?_cons hquote, if_pos rfl]
    rfl
  | plain hc ht ih =>
    rw [List.cons_append, quotedTail?_cons hc]
    split
    · rfl
    · rw [Option.isSome_map]
      exact ih
  | pair ht ih =>
    rw [List.cons_append, List.cons_append, quotedTail?, Option.isSome_map]
    exact ih

/-- Where the marker of a heredoc closes it, the reader sees that. -/
theorem isSome_heredocClose? {marker line : Text} (hmarker : IsName marker)
    (h : ClosesHeredoc marker line) : (heredocClose? marker line).isSome = true := by
  obtain ⟨blanks, after, rfl, hblanks, hafter⟩ := h
  have hrun : (blanks ++ (marker ++ after)).takeWhile isBlank = blanks :=
    takeWhile_run hblanks (hmarker.any_head? not_isNameStart_of_isBlank after)
  have hstrip : Text.stripStart marker (marker ++ after) = some after :=
    Text.stripStart_eq_some_iff.2 rfl
  rw [heredocClose?, hrun, List.drop_left, hstrip]
  simp [hafter]

/-- A line that closes a heredoc is found, or one before it. -/
theorem isSome_heredocTail? {marker line : Text} (hmarker : IsName marker)
    (h : ClosesHeredoc marker line) {before : Text} {lineStart : Bool}
    (hstart : before = [] → lineStart = true) (hbefore : StartsLine before) :
    (heredocTail? marker lineStart (before ++ line)).isSome = true := by
  induction before generalizing lineStart with
  | nil =>
    obtain ⟨length, hlength⟩ := Option.isSome_iff_exists.1 (isSome_heredocClose? hmarker h)
    cases line with
    | nil =>
      obtain ⟨blanks, after, heq, -⟩ := h
      simp [hmarker.ne_nil] at heq
    | cons c line => simp [heredocTail?, hstart rfl, hlength]
  | cons c before ih =>
    obtain ⟨hfeed, hbefore⟩ := hbefore.of_cons
    rw [List.cons_append, heredocTail?]
    split
    · rfl
    · rw [Option.isSome_map]
      exact ih (fun hnil => beq_iff_eq.2 (hfeed hnil)) hbefore

end Literal

/-- A comment stays open when no star and slash follow. -/
theorem Comment.untilClose_eq_none_iff {t : Text} :
    untilClose t = none ↔ ¬['*', '/'] <:+: t := by
  induction t with
  | nil => simp [untilClose]
  | cons c t ih =>
    have hfront : ['*', '/'] <+: c :: t ↔ (c = '*' && t.head? == some '/') = true := by
      cases t with
      | nil => simp
      | cons d t => simp [List.cons_prefix_cons, @eq_comm _ '*', @eq_comm _ '/']
    rw [untilClose, List.infix_cons_iff, hfront, not_or]
    split
    · next hclose => simp [hclose]
    · next hclose => simp [hclose, ih]

namespace Scan

variable {previous : Option Kind} {rest : Text}

/-- A reading of a text is no fault, or the text starts with what it does not close. -/
def Founded (t : Text) : Reading → Prop
  | .one _ _ => True
  | .docComment _ => True
  | .fault f => Unterminated f t

/-- A guard answers no fault without a cause when neither of its branches does. -/
theorem Founded.ite {t : Text} {p : Prop} [Decidable p] {r r' : Reading} (hpos : p → Founded t r)
    (hneg : ¬p → Founded t r') : Founded t (if p then r else r') := by
  by_cases h : p
  · rw [if_pos h]
    exact hpos h
  · rw [if_neg h]
    exact hneg h

/-- A comment that is not closed is unterminated. -/
theorem unterminated_comment (hnext : rest.head?.any (· == '*') = true)
    (hclose : Comment.untilClose (rest.drop 1) = none) :
    Unterminated .unterminatedComment ('/' :: rest) := by
  cases rest with
  | nil => cases hnext
  | cons d rest =>
    obtain rfl : d = '*' := beq_iff_eq.1 hnext
    exact .comment (Comment.untilClose_eq_none_iff.1 hclose)

/-- A doc comment is not closed by its second star, for white space follows. -/
theorem untilClose_drop_one (hopens : Comment.opensDoc rest = true)
    (hclose : Comment.untilClose (rest.drop 2) = none) :
    Comment.untilClose (rest.drop 1) = none := by
  unfold Comment.opensDoc at hopens
  split at hopens
  · next d t =>
    have hslash : d ≠ '/' := by
      rintro rfl
      exact absurd hopens (by decide)
    rw [List.drop_succ_cons, List.drop_succ_cons, List.drop_zero] at hclose
    rw [List.drop_succ_cons, List.drop_zero, Comment.untilClose, hclose]
    simp [hslash]
  · cases hopens

/-- A string that is not closed is unterminated. -/
theorem unterminated_string (hquote : isQuote c = true)
    (hclose : Literal.quotedTail? c rest = none) : Unterminated .unterminatedString (c :: rest) := by
  refine .string hquote fun before after hrest hescaped => ?_
  have hne : c ≠ '\\' := by
    rintro rfl
    exact absurd hquote (by decide)
  have hfound := Literal.isSome_quotedTail? hne hescaped after
  rw [← hrest, hclose] at hfound
  cases hfound

/-- A heredoc with a header whose end is not found is unterminated. -/
theorem unterminated_heredoc (hread : Literal.heredoc? rest = some (.error f)) :
    Unterminated f ('<' :: rest) := by
  obtain ⟨marker, header, body, hheader, rfl, houtcome⟩ := Literal.heredoc?_eq_some_iff.1 hread
  cases htail : Literal.heredocTail? marker true body with
  | some tail =>
    rw [htail] at houtcome
    cases houtcome
  | none =>
    rw [htail] at houtcome
    obtain rfl := Except.error.inj houtcome
    refine .heredoc hheader fun before line hbody hstart hcloses => ?_
    have hfound := Literal.isSome_heredocTail? hheader.isName hcloses (fun _ => rfl) hstart
    rw [← hbody, htail] at hfound
    cases hfound

/-- A fault is raised where something starts that the text does not close. -/
theorem founded_read (previous : Option Kind) (c : Char) (rest : Text) :
    Founded (c :: rest) (read previous c rest) := by
  dsimp only [read]
  refine .ite (fun _ => trivial) fun _ => ?_
  refine .ite (fun _ => trivial) fun _ => ?_
  refine .ite (fun _ => trivial) fun _ => ?_
  refine .ite (fun _ => trivial) fun _ => ?_
  refine .ite (fun hstar => ?_) fun _ => ?_
  · rw [Bool.and_eq_true, beq_iff_eq] at hstar
    obtain ⟨rfl, hnext⟩ := hstar
    refine .ite (fun hopens => ?_) fun _ => ?_
    · cases hclose : Comment.untilClose (rest.drop 2) with
      | some body => trivial
      | none => exact unterminated_comment hnext (untilClose_drop_one hopens hclose)
    · cases hclose : Comment.untilClose (rest.drop 1) with
      | some body => trivial
      | none => exact unterminated_comment hnext hclose
  refine .ite (fun _ => trivial) fun _ => ?_
  refine .ite (fun _ => trivial) fun _ => ?_
  refine .ite (fun _ => trivial) fun _ => ?_
  refine .ite (fun hquote => ?_) fun _ => ?_
  · cases hclose : Literal.quotedTail? c rest with
    | some more => trivial
    | none => exact unterminated_string hquote hclose
  · by_cases hc : c = '<'
    · subst hc
      cases hread : Literal.heredoc? rest with
      | none => trivial
      | some outcome =>
        cases outcome with
        | ok more => trivial
        | error fault => exact unterminated_heredoc hread
    · have hsign : (c == '<') = false := beq_false_of_ne hc
      rw [hsign]
      trivial

/-- Every fault of a reading has its cause in the text. -/
theorem unterminated_of_read (h : read previous c rest = .fault f) :
    Unterminated f (c :: rest) := by
  have hfounded := founded_read previous c rest
  rw [h] at hfounded
  exact hfounded

/-- A quote is a stop. -/
theorem isStop_of_isQuote (h : isQuote c = true) : IsStop c ∧ c ≠ '?' := by
  simp only [isQuote, Bool.or_eq_true, beq_iff_eq] at h
  rcases h with (rfl | rfl) | h
  · decide
  · decide
  · rw [← Char.ofNat_toNat c, h]
    decide

/-- What may stay open starts with a stop, and with no question mark. -/
theorem isStop_of_read (h : read previous c rest = .fault f) : IsStop c ∧ c ≠ '?' := by
  have hopen := unterminated_of_read h
  generalize ht : c :: rest = t at hopen
  cases hopen with
  | string hquote hopen =>
    obtain ⟨rfl, -⟩ := List.cons.inj ht
    exact isStop_of_isQuote hquote
  | comment hopen =>
    obtain ⟨rfl, -⟩ := List.cons.inj ht
    decide
  | heredoc hheader hopen =>
    obtain ⟨rfl, -⟩ := List.cons.inj ht
    decide

/-! ## In front of an open construct -/

/-- An operator that ends before some place is the one that is read if the text ends there. -/
theorem steady_operator (c : Char) (w z : Text) :
    Steady w.length (.one (Operator.read c (w ++ z)).1 (Operator.read c (w ++ z)).2)
      (.one (Operator.read c w).1 (Operator.read c w).2) := by
  intro hends
  have hmono (entry : Text × Kind) (h : Text.startsWith entry.1 (c :: w) = true) :
      Text.startsWith entry.1 (c :: (w ++ z)) = true := by
    rw [Text.startsWith_iff] at h ⊢
    exact h.trans (List.prefix_append (c :: w) z)
  unfold Operator.read at hends ⊢
  cases hfound : Operator.longer.find? fun entry => Text.startsWith entry.1 (c :: (w ++ z)) with
  | none =>
    rw [List.find?_eq_none] at hfound
    have hnone : (Operator.longer.find? fun entry => Text.startsWith entry.1 (c :: w)) = none :=
      List.find?_eq_none.2 fun entry hentry h => hfound entry hentry (hmono entry h)
    rw [hnone]
  | some entry =>
    rw [hfound] at hends
    obtain ⟨hstart, before, after, hlist, hearlier⟩ := List.find?_eq_some_iff_append.1 hfound
    have hshort : Text.startsWith entry.1 (c :: w) = true := by
      rw [Text.startsWith_iff] at hstart ⊢
      refine List.prefix_of_prefix_length_le hstart (List.prefix_append (c :: w) z) ?_
      have hle : entry.1.length - 1 ≤ w.length := hends
      rw [List.length_cons]
      omega
    have hsome : (Operator.longer.find? fun entry => Text.startsWith entry.1 (c :: w)) =
        some entry := by
      refine List.find?_eq_some_iff_append.2 ⟨hshort, before, after, hlist, fun e he => ?_⟩
      have hnot := hearlier e he
      rw [Bool.not_eq_true'] at hnot ⊢
      by_contra hfront
      rw [hmono e (by simpa using hfront)] at hnot
      exact Bool.false_ne_true hnot.symm
    rw [hsome]

/-- So is a string. -/
theorem steady_quoted (c : Char) (w z : Text) :
    Steady w.length
      (match Literal.quotedTail? c (w ++ z) with
        | some more => .one .quoted more
        | none => .fault .unterminatedString)
      (match Literal.quotedTail? c w with
        | some more => .one .quoted more
        | none => .fault .unterminatedString) := by
  intro hends
  cases hclose : Literal.quotedTail? c (w ++ z) with
  | none =>
    rw [hclose] at hends
    exact hends.elim
  | some more =>
    rw [hclose] at hends
    rw [Literal.quotedTail?_append_iff.1 ⟨hclose, hends⟩]

/-- So is a heredoc, and an operator where no heredoc is. -/
theorem steady_sign (hm : IsStop m) (c : Char) (w z : Text) :
    Steady w.length
      (match (if c == '<' then Literal.heredoc? (w ++ m :: z) else none) with
        | some (.ok more) => .one .heredoc more
        | some (.error fault) => .fault fault
        | none =>
          .one (Operator.read c (w ++ m :: z)).1 (Operator.read c (w ++ m :: z)).2)
      (match (if c == '<' then Literal.heredoc? w else none) with
        | some (.ok more) => .one .heredoc more
        | some (.error fault) => .fault fault
        | none => .one (Operator.read c w).1 (Operator.read c w).2) := by
  cases c == '<' with
  | false => exact steady_operator c w (m :: z)
  | true =>
    simp only [if_true]
    cases houtcome : Literal.heredoc? (w ++ m :: z) with
    | none =>
      rw [Literal.heredoc?_eq_none_of_append houtcome]
      exact steady_operator c w (m :: z)
    | some outcome =>
      cases outcome with
      | error fault => exact False.elim
      | ok more =>
        intro hends
        rw [(Literal.heredoc?_stop_iff hm).1 ⟨houtcome, hends⟩]

/-- A reading that ends before the start of a construct is what is read if the text ends there. -/
theorem steady_cut (hm : IsStop m) (hmark : m ≠ '?') (previous : Option Kind) (c : Char)
    (w z : Text) : Steady w.length (read previous c (w ++ m :: z)) (read previous c w) := by
  have hname : (w ++ m :: z).takeWhile isNameChar = w.takeWhile isNameChar :=
    Text.takeWhile_stop (hm.eq_false (by decide)) w z
  have hnext {p : Char → Bool} (hp : stops.any p = false) :
      (w ++ m :: z).head?.any p = w.head?.any p := Text.any_head?_stop (hm.eq_false hp) w z
  dsimp only [read]
  refine .ite .rfl (fun _ => ?_) fun _ => ?_
  · rw [whitespaceTail_stop hm]
    exact .refl _ _
  refine .ite (by rw [hnext (p := (· == '>')) (by decide)]) (fun hclose => ?_) fun _ => ?_
  · rw [Bool.and_eq_true, hnext (p := (· == '>')) (by decide)] at hclose
    cases w with
    | nil => exact absurd hclose.2 Bool.false_ne_true
    | cons d w =>
      have hfeed := Text.head?_stop_eq_some_iff (hm.ne (c := '\n') (by decide)) w z
      simp only [List.cons_append, List.drop_succ_cons, List.drop_zero, hfeed]
      exact .refl _ _
  refine .ite (by rw [hnext (p := (· == '[')) (by decide)]) (fun _ => .refl _ _) fun _ => ?_
  by_cases hslash : w = [] ∧ m = '/' ∧ c = '/'
  · -- Two slashes start a comment that ends behind them.
    obtain ⟨rfl, rfl, rfl⟩ := hslash
    intro hends
    have hpos := Comment.length_lineTail_pos hm hmark z
    have hle : (Comment.lineTail ('/' :: z)).length ≤ 0 := hends
    omega
  have hcomment : (c == '/' && (w ++ m :: z).head?.any (· == '/')) =
      (c == '/' && w.head?.any (· == '/')) := by
    cases w with
    | cons d w => rfl
    | nil =>
      rw [Bool.eq_iff_iff]
      simp only [List.nil_append, List.head?_cons, Option.any_some, Bool.and_eq_true, beq_iff_eq,
        List.head?_nil, Option.any_none, Bool.false_eq_true, and_false, iff_false]
      exact fun h => hslash ⟨rfl, h.2, h.1⟩
  refine .ite (by rw [hcomment]) (fun _ => ?_) fun _ => ?_
  · intro hends
    rw [Comment.lineTail_eq_of_le hm hmark hends]
  refine .ite (by rw [hnext (p := (· == '*')) (by decide)]) (fun _ => ?_) fun _ => ?_
  · refine .ite (by rw [Comment.opensDoc_stop hm]) (fun _ => ?_) fun _ => ?_
    · exact steady_untilClose (fun body hends => hends) (List.prefix_append w _) List.prefix_rfl
    · exact steady_untilClose (fun body hends => hends) (List.prefix_append w _) List.prefix_rfl
  refine .ite (by rw [hnext (p := isNameStart) (by decide)]) (fun _ => ?_) fun _ => ?_
  · rw [hname]
    exact .refl _ _
  refine .ite .rfl (fun _ => ?_) fun _ => ?_
  · rw [Word.read_stop hm]
    exact .refl _ _
  refine .ite (by rw [hnext (p := Char.isDigit) (by decide)]) (fun _ => ?_) fun _ => ?_
  · have hnumber : Number.read (c :: (w ++ m :: z)) = Number.read (c :: w) :=
      Number.read_stop hm (c :: w) z
    rw [hnumber]
    exact .refl _ _
  exact .ite .rfl (fun _ => steady_quoted c w (m :: z)) fun _ => steady_sign hm c w z

end Scan

end PhpLint

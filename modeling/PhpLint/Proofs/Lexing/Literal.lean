import PhpLint.Proofs.Lexing.Stop

/-!
# String literals in front of a stop

The search for the end of a string may go past a stop, and so may the search for the end of a heredoc.
When one of them ends before, it looks at no more than the text in front.

The header of a heredoc is the text that `IsHeader` describes: blanks, a marker with or without quotes
around it, and a line end (`heredocHeader?_eq_some_iff`).  So it is found in a text as soon as all of it
is there, and its marker holds no stop.
-/

namespace PhpLint

variable {w z : Text} {m : Char}

namespace Literal

variable {n : Nat}

/-- A search that goes on behind `k` characters, and ends before some place or not. -/
theorem map_add_eq_some_iff {o o' : Option Nat} {b : Nat}
    (h : ∀ m, o = some m ∧ m ≤ b ↔ o' = some m) (k : Nat) :
    o.map (· + k) = some n ∧ n ≤ b + k ↔ o'.map (· + k) = some n := by
  simp only [Option.map_eq_some_iff, ← h]
  constructor
  · rintro ⟨⟨m, hm, rfl⟩, hle⟩
    exact ⟨m, ⟨hm, by omega⟩, rfl⟩
  · rintro ⟨m, ⟨hm, hle⟩, rfl⟩
    exact ⟨⟨m, hm, rfl⟩, by omega⟩

/-- A string that is closed ends behind at least one character, its quote. -/
theorem quotedTail?_pos {quote : Char} {t : Text} (h : quotedTail? quote t = some n) : 0 < n := by
  unfold quotedTail? at h
  split at h
  · cases h
  · cases h
  · obtain ⟨m, -, rfl⟩ := Option.map_eq_some_iff.1 h
    omega
  · split at h
    · cases h
      exact Nat.one_pos
    · obtain ⟨m, -, rfl⟩ := Option.map_eq_some_iff.1 h
      omega

/-- Whether a string is closed before some place is decided by the text before it. -/
theorem quotedTail?_append_iff {quote : Char} :
    quotedTail? quote (w ++ z) = some n ∧ n ≤ w.length ↔ quotedTail? quote w = some n := by
  fun_induction quotedTail? quote w generalizing n with
  | case1 =>
    simp only [List.nil_append, List.length_nil, reduceCtorEq, iff_false, not_and]
    intro h hle
    have hpos := quotedTail?_pos h
    omega
  | case2 =>
    -- A backslash at the end takes the first character behind it.
    simp only [reduceCtorEq, iff_false, not_and]
    intro h hle
    cases z with
    | nil => cases h
    | cons d z =>
      obtain ⟨m, -, rfl⟩ := Option.map_eq_some_iff.1 h
      simp at hle
  | case3 d t ih =>
    rw [List.cons_append, List.cons_append, quotedTail?]
    exact map_add_eq_some_iff (fun _ => ih) 2
  | case4 t hlast hpair =>
    rw [List.cons_append, quotedTail?_cons (ne_backslash_of_alone hlast hpair), if_pos rfl]
    simp only [Option.some.injEq, List.length_cons, and_iff_left_iff_imp]
    omega
  | case5 c t hlast hpair hc ih =>
    rw [List.cons_append, quotedTail?_cons (ne_backslash_of_alone hlast hpair), if_neg hc]
    exact map_add_eq_some_iff (fun _ => ih) 1

/-! ## The header of a heredoc -/

/-- A name: a character that may start one, and characters that may go on. -/
structure IsName (name : Text) : Prop where
  start : name.head?.any isNameStart = true
  chars : ∀ c ∈ name, isNameChar c = true

theorem IsName.ne_nil {name : Text} (h : IsName name) : name ≠ [] := by
  rintro rfl
  exact Bool.false_ne_true h.start

/-- A name holds no stop. -/
theorem IsName.stop_notMem {name : Text} (h : IsName name) (hm : IsStop m) : m ∉ name := by
  intro hmem
  have hchar := h.chars m hmem
  rw [hm.eq_false (p := isNameChar) (by decide)] at hchar
  exact Bool.false_ne_true hchar

/-- The quotes that a marker may stand between. -/
def markerQuotes : List Text := [[], ['\''], ['"']]

/-- The ends of a line. -/
def lineEnds : List Text := [['\n'], ['\r', '\n']]

/-- What follows the three signs in the header of a heredoc with a marker. -/
inductive IsHeader (marker : Text) : Text → Prop
  | intro {blanks quote ending : Text} (hblanks : ∀ c ∈ blanks, isBlank c = true)
      (hquote : quote ∈ markerQuotes) (hmarker : IsName marker) (hending : ending ∈ lineEnds) :
      IsHeader marker (blanks ++ (quote ++ (marker ++ (quote ++ ending))))

/-- The marker in a header is a name. -/
theorem IsHeader.isName {marker header : Text} (h : IsHeader marker header) : IsName marker := by
  cases h
  assumption

/-- A run of a class of characters is all of it that stands before another character. -/
theorem takeWhile_run {p : Char → Bool} {run rest : Text} (hrun : ∀ c ∈ run, p c = true)
    (hrest : rest.head?.any p = false) : (run ++ rest).takeWhile p = run := by
  rw [List.takeWhile_append_of_pos hrun]
  cases rest with
  | nil => simp
  | cons c rest =>
    have hc : p c = false := hrest
    simp [hc]

/-- A line end is read where one stands. -/
theorem lineEnd?_eq_some_iff {t : Text} :
    lineEnd? t = some n ↔ ∃ ending ∈ lineEnds, ending <+: t ∧ ending.length = n := by
  unfold lineEnd?
  split
  · simp [lineEnds, eq_comm]
  · simp [lineEnds, eq_comm]
  · next hfeed hreturn =>
    simp only [lineEnds, reduceCtorEq, false_iff]
    intro h
    obtain ⟨ending, hending, ⟨rest, hrest⟩, -⟩ := h
    simp only [List.mem_cons, List.not_mem_nil, or_false] at hending
    rcases hending with rfl | rfl
    · exact hfeed rest hrest.symm
    · exact hreturn rest hrest.symm

/-- The closing quote is passed where it stands, if there has to be one. -/
theorem afterQuote?_eq_some_iff {quote : Option Char} {t after : Text} :
    afterQuote? quote t = some after ↔ t = quote.toList ++ after := by
  cases quote with
  | none => simp [afterQuote?]
  | some q =>
    unfold afterQuote?
    rw [Option.toList_some, List.singleton_append]
    constructor
    · intro h
      obtain ⟨hhead, h⟩ := Option.ite_none_right_eq_some.1 h
      obtain ⟨rest, rfl⟩ := List.head?_eq_some_iff.1 hhead
      rw [← Option.some.inj h]
      rfl
    · rintro rfl
      exact if_pos rfl

/-- A marker is read where a name, its closing quote and a line end stand. -/
theorem headerFrom_eq_some_iff {front : Nat} {quote : Option Char} {name marker : Text}
    (hquote : ∀ q ∈ quote, isMarkerQuote q = true) :
    headerFrom front quote name = some (marker, n) ↔
      IsName marker ∧ ∃ ending ∈ lineEnds, marker ++ (quote.toList ++ ending) <+: name ∧
        front + (marker ++ (quote.toList ++ ending)).length = n := by
  have hsize (q : Option Char) : q.toList.length = if q.isSome then 1 else 0 := by
    cases q <;> rfl
  unfold headerFrom
  dsimp only
  constructor
  · intro h
    obtain ⟨hstart, h⟩ := Option.ite_none_right_eq_some.1 h
    obtain ⟨after, hafter, h⟩ := Option.bind_eq_some_iff.1 h
    obtain ⟨k, hk, h⟩ := Option.map_eq_some_iff.1 h
    obtain ⟨rfl, rfl⟩ := Prod.mk.inj h
    obtain ⟨ending, hending, ⟨rest, rfl⟩, rfl⟩ := lineEnd?_eq_some_iff.1 hk
    rw [afterQuote?_eq_some_iff] at hafter
    have hname := List.prefix_append_drop (List.takeWhile_prefix isNameChar (l := name))
    rw [hafter] at hname
    refine ⟨⟨?_, fun c hc => List.mem_takeWhile_imp hc⟩, ending, hending, ⟨rest, ?_⟩, ?_⟩
    · cases name with
      | nil => simp at hstart
      | cons c name =>
        have hc : isNameChar c = true := by
          have hc' : isNameStart c = true := hstart
          rw [isNameChar, hc', Bool.true_or]
        rw [List.takeWhile_cons_of_pos hc]
        exact hstart
    · conv_rhs => rw [hname]
      simp
    · rw [List.length_append, List.length_append, hsize]
      omega
  · intro hparts
    obtain ⟨hmarker, ending, hending, ⟨rest, hname⟩, hn⟩ := hparts
    have hstart : name.head?.any isNameStart = true := by
      obtain ⟨c, marker, rfl⟩ := List.exists_cons_of_ne_nil hmarker.ne_nil
      rw [← hname]
      exact hmarker.start
    have hstop : (quote.toList ++ ending ++ rest).head?.any isNameChar = false := by
      cases quote with
      | none =>
        simp only [lineEnds, List.mem_cons, List.not_mem_nil, or_false] at hending
        rcases hending with rfl | rfl <;> rfl
      | some q =>
        have hq := hquote q rfl
        simp only [isMarkerQuote, Bool.or_eq_true, beq_iff_eq] at hq
        rcases hq with rfl | rfl <;> rfl
    have hrun : name.takeWhile isNameChar = marker := by
      rw [← hname, List.append_assoc]
      exact takeWhile_run hmarker.chars hstop
    have hdrop : name.drop marker.length = quote.toList ++ (ending ++ rest) := by
      rw [← hname]
      simp
    have hline := lineEnd?_eq_some_iff.2 ⟨ending, hending, List.prefix_append ending rest, rfl⟩
    rw [if_pos hstart, hrun, hdrop, afterQuote?_eq_some_iff.2 rfl, Option.bind_some, hline,
      Option.map_some, ← hn, List.length_append, List.length_append, hsize, ← Nat.add_assoc,
      ← Nat.add_assoc]

/-- What may start a name is neither a blank nor a quote. -/
theorem IsName.any_head? {name : Text} (h : IsName name) {p : Char → Bool}
    (hp : ∀ c, p c = true → isNameStart c = false) (rest : Text) :
    (name ++ rest).head?.any p = false := by
  obtain ⟨c, name, rfl⟩ := List.exists_cons_of_ne_nil h.ne_nil
  have hstart : isNameStart c = true := h.start
  have hc : p c = false := by
    by_contra hc
    rw [hp c (by simpa using hc)] at hstart
    exact Bool.false_ne_true hstart
  exact hc

theorem not_isNameStart_of_isBlank (c : Char) (h : isBlank c = true) : isNameStart c = false := by
  simp only [isBlank, Bool.or_eq_true, beq_iff_eq] at h
  rcases h with rfl | rfl <;> rfl

theorem not_isNameStart_of_isMarkerQuote (c : Char) (h : isMarkerQuote c = true) :
    isNameStart c = false := by
  simp only [isMarkerQuote, Bool.or_eq_true, beq_iff_eq] at h
  rcases h with rfl | rfl <;> rfl

/-- A marker stands without quotes or between two of one sort. -/
theorem mem_markerQuotes_iff {quote : Text} :
    quote ∈ markerQuotes ↔ quote = [] ∨ ∃ q, quote = [q] ∧ isMarkerQuote q = true := by
  simp [markerQuotes, isMarkerQuote, and_or_left, exists_or]

/-- The header that is read stands in front. -/
theorem exists_header_of_heredocHeader? {t marker : Text}
    (h : heredocHeader? t = some (marker, n)) :
    ∃ header, IsHeader marker header ∧ header <+: t ∧ header.length = n := by
  rw [heredocHeader?_eq] at h
  dsimp only at h
  have hblanks := List.prefix_append_drop (List.takeWhile_prefix isBlank (l := t))
  have hall : ∀ c ∈ t.takeWhile isBlank, isBlank c = true := fun c hc => List.mem_takeWhile_imp hc
  split at h
  · obtain ⟨hmarker, ending, hending, ⟨rest, hrest⟩, hn⟩ :=
      (headerFrom_eq_some_iff (by simp)).1 h
    refine ⟨_, @IsHeader.intro _ _ [] _ hall (by decide) hmarker hending, ⟨rest, ?_⟩, ?_⟩
    · conv_rhs => rw [hblanks, ← hrest]
      simp
    · rw [← hn]
      simp
  · next q hq =>
    obtain ⟨hhead, hq⟩ := Option.filter_eq_some_iff.1 hq
    obtain ⟨name, hname⟩ := List.head?_eq_some_iff.1 hhead
    rw [hname] at h hblanks
    obtain ⟨hmarker, ending, hending, ⟨rest, hrest⟩, hn⟩ :=
      (headerFrom_eq_some_iff fun q' hq' => Option.some.inj hq' ▸ hq).1 h
    have hquote : [q] ∈ markerQuotes := mem_markerQuotes_iff.2 (.inr ⟨q, rfl, hq⟩)
    refine ⟨_, @IsHeader.intro _ _ [q] _ hall hquote hmarker hending, ⟨rest, ?_⟩, ?_⟩
    · rw [List.drop_succ_cons, List.drop_zero] at hrest
      conv_rhs => rw [hblanks, ← hrest]
      simp
    · rw [← hn]
      simp
      omega

/-- A header that stands in front is read. -/
theorem heredocHeader?_of_isHeader {t marker header : Text} (hheader : IsHeader marker header)
    (hfront : header <+: t) : heredocHeader? t = some (marker, header.length) := by
  obtain @⟨blanks, quote, ending, hblanks, hquote, hmarker, hending⟩ := hheader
  obtain ⟨rest, hrest⟩ := hfront
  rw [List.append_assoc] at hrest
  rw [mem_markerQuotes_iff] at hquote
  have hrun : t.takeWhile isBlank = blanks := by
    rw [← hrest]
    refine takeWhile_run hblanks ?_
    rcases hquote with rfl | ⟨q, rfl, hq⟩
    · rw [List.nil_append, List.append_assoc]
      exact hmarker.any_head? not_isNameStart_of_isBlank _
    · simp only [isMarkerQuote, Bool.or_eq_true, beq_iff_eq] at hq
      rcases hq with rfl | rfl <;> rfl
  have hname : t.drop blanks.length = quote ++ (marker ++ (quote ++ ending)) ++ rest := by
    rw [← hrest, List.drop_left]
  rw [heredocHeader?_eq]
  dsimp only
  rw [hrun, hname]
  rcases hquote with rfl | ⟨q, rfl, hq⟩
  · have hbare : (([] : Text) ++ (marker ++ ([] ++ ending)) ++ rest).head?.filter isMarkerQuote =
        none := by
      rw [List.nil_append, List.nil_append, List.append_assoc, Option.filter_eq_none_iff]
      intro c hc hquote
      have hhead := hmarker.any_head? not_isNameStart_of_isMarkerQuote (ending ++ rest)
      rw [hc] at hhead
      exact Bool.false_ne_true (hhead.symm.trans hquote)
    rw [hbare]
    refine (headerFrom_eq_some_iff (by simp)).2
      ⟨hmarker, ending, hending, List.prefix_append _ rest, ?_⟩
    simp
  · have hquoted : ([q] ++ (marker ++ ([q] ++ ending)) ++ rest).head?.filter isMarkerQuote =
        some q :=
      Option.filter_some_pos hq
    rw [hquoted]
    refine (headerFrom_eq_some_iff fun q' hq' => Option.some.inj hq' ▸ hq).2
      ⟨hmarker, ending, hending, List.prefix_append _ rest, ?_⟩
    simp
    omega

/-- The header of a heredoc is read where one is written. -/
theorem heredocHeader?_eq_some_iff {t marker : Text} :
    heredocHeader? t = some (marker, n) ↔
      ∃ header, IsHeader marker header ∧ header <+: t ∧ header.length = n := by
  refine ⟨exists_header_of_heredocHeader?, fun hparts => ?_⟩
  obtain ⟨header, hheader, hfront, rfl⟩ := hparts
  exact heredocHeader?_of_isHeader hheader hfront

/-! ## The end of a heredoc -/

/-- Whether a line closes a heredoc is decided before a stop. -/
theorem heredocClose?_stop (hm : IsStop m) {marker : Text} (hmarker : m ∉ marker) (w z : Text) :
    heredocClose? marker (w ++ m :: z) = heredocClose? marker w := by
  have hblanks : (w ++ m :: z).takeWhile isBlank = w.takeWhile isBlank :=
    Text.takeWhile_stop (hm.eq_false (by decide)) w z
  unfold heredocClose?
  dsimp only
  rw [hblanks, Text.drop_run, Text.stripStart_stop hmarker]
  cases Text.stripStart marker (w.drop (w.takeWhile isBlank).length) with
  | none => rfl
  | some after =>
    simp only [Option.map_some, Text.any_head?_stop (p := isNameChar) (hm.eq_false (by decide))]

/-- What closes a heredoc lies in the text. -/
theorem heredocClose?_le {marker t : Text} (h : heredocClose? marker t = some n) :
    n ≤ t.length := by
  unfold heredocClose? at h
  dsimp only at h
  split at h
  · next after hafter =>
    split at h
    · cases h
    · obtain rfl := Option.some.inj h
      have hlength := congrArg List.length (Text.stripStart_eq_some_iff.1 hafter)
      rw [List.length_drop, List.length_append] at hlength
      have hrun := (List.takeWhile_prefix isBlank (l := t)).length_le
      omega
  · cases h

/-- Whether a heredoc is closed before a stop is decided by the text before it. -/
theorem heredocTail?_stop_iff (hm : IsStop m) {marker : Text} (hname : IsName marker)
    {lineStart : Bool} :
    heredocTail? marker lineStart (w ++ m :: z) = some n ∧ n ≤ w.length ↔
      heredocTail? marker lineStart w = some n := by
  have hmarker := hname.stop_notMem hm
  induction w generalizing lineStart n with
  | nil =>
    have hnone : heredocClose? marker ([] ++ m :: z) = none := by
      rw [heredocClose?_stop hm hmarker]
      obtain ⟨c, marker, rfl⟩ := List.exists_cons_of_ne_nil hname.ne_nil
      rfl
    rw [List.nil_append] at hnone ⊢
    simp only [heredocTail?, hnone, ite_self, Option.map_eq_some_iff, List.length_nil, reduceCtorEq,
      iff_false, not_and]
    rintro ⟨m, -, rfl⟩
    omega
  | cons c w ih =>
    have hclose := heredocClose?_stop hm hmarker (c :: w) z
    rw [List.cons_append] at hclose ⊢
    rw [heredocTail?, heredocTail?, hclose]
    cases hfound : if lineStart then heredocClose? marker (c :: w) else none with
    | some m =>
      rw [Option.ite_none_right_eq_some] at hfound
      have hle := heredocClose?_le hfound.2
      simp only [Option.some.injEq, and_iff_left_iff_imp]
      rintro rfl
      exact hle
    | none => exact map_add_eq_some_iff (fun _ => ih) 1

/-! ## Whole heredocs -/

/-- The text of a heredoc after its first sign: two more signs, a header, and what follows. -/
theorem heredoc?_eq_some_iff {rest : Text} {outcome : Except Fault Nat} :
    heredoc? rest = some outcome ↔ ∃ marker header body, IsHeader marker header ∧
      rest = '<' :: '<' :: (header ++ body) ∧
      outcome = match heredocTail? marker true body with
        | some tail => .ok (2 + header.length + tail)
        | none => .error .unterminatedHeredoc := by
  rw [heredoc?_eq]
  constructor
  · intro h
    obtain ⟨t, ht, h⟩ := Option.bind_eq_some_iff.1 h
    obtain ⟨⟨marker, k⟩, hk, rfl⟩ := Option.map_eq_some_iff.1 h
    obtain ⟨header, hheader, ⟨body, rfl⟩, rfl⟩ := heredocHeader?_eq_some_iff.1 hk
    refine ⟨marker, header, body, hheader, Text.stripStart_eq_some_iff.1 ht, ?_⟩
    rewrite [List.drop_left]
    rfl
  · intro hparts
    obtain ⟨marker, header, body, hheader, hrest, houtcome⟩ := hparts
    have hsigns : Text.stripStart ['<', '<'] rest = some (header ++ body) :=
      Text.stripStart_eq_some_iff.2 hrest
    have hread := heredocHeader?_eq_some_iff.2
      ⟨header, hheader, List.prefix_append header body, rfl⟩
    rewrite [hsigns, Option.bind_some, hread, Option.map_some, List.drop_left, houtcome]
    rfl

/-- A header that stands in a text stands in it whatever follows. -/
theorem heredoc?_eq_none_of_append (h : heredoc? (w ++ z) = none) : heredoc? w = none := by
  cases hw : heredoc? w with
  | none => rfl
  | some outcome =>
    obtain ⟨marker, header, body, hheader, rfl, -⟩ := heredoc?_eq_some_iff.1 hw
    have hlonger := heredoc?_eq_some_iff.2 ⟨marker, header, body ++ z, hheader, rfl, rfl⟩
    rw [← List.append_assoc] at hlonger
    exact absurd (h.symm.trans hlonger) (by simp)

/-- A header holds no question mark. -/
theorem IsHeader.question_notMem {marker header : Text} (h : IsHeader marker header) :
    '?' ∉ header := by
  obtain @⟨blanks, quote, ending, hblanks, hquote, hmarker, hending⟩ := h
  have hblank : '?' ∉ blanks := fun hmem => absurd (hblanks '?' hmem) (by decide)
  have hname : '?' ∉ marker := hmarker.stop_notMem (by decide : '?' ∈ stops)
  have hquotes : ∀ quote ∈ markerQuotes, '?' ∉ quote := by decide
  have hends : ∀ ending ∈ lineEnds, '?' ∉ ending := by decide
  simp only [List.mem_append, not_or]
  exact ⟨hblank, hquotes _ hquote, hname, hquotes _ hquote, hends _ hending⟩

/-- What stands in front of a text and does not hold a character stands before that character. -/
theorem isPrefix_of_notMem {t : Text} (h : t <+: w ++ m :: z) (hm : m ∉ t) : t <+: w := by
  rcases Nat.lt_or_ge w.length t.length with hlt | hle
  · have hfront : w ++ [m] <+: w ++ m :: z := ⟨z, by simp⟩
    have hlength : (w ++ [m]).length ≤ t.length := by
      rw [List.length_append]
      exact hlt
    have hinside := List.prefix_of_prefix_length_le hfront h hlength
    exact absurd (hinside.subset (by simp)) hm
  · exact List.prefix_of_prefix_length_le h (List.prefix_append w _) hle

/-- No header reaches over a question mark. -/
theorem heredoc?_question_eq_none_iff : heredoc? (w ++ '?' :: z) = none ↔ heredoc? w = none := by
  refine ⟨heredoc?_eq_none_of_append, fun h => ?_⟩
  cases hlonger : heredoc? (w ++ '?' :: z) with
  | none => rfl
  | some outcome =>
    obtain ⟨marker, header, body, hheader, hw, -⟩ := heredoc?_eq_some_iff.1 hlonger
    have hfree : '?' ∉ '<' :: '<' :: header := by
      simp [hheader.question_notMem]
    obtain ⟨v, rfl⟩ := isPrefix_of_notMem (t := '<' :: '<' :: header) ⟨body, hw.symm⟩ hfree
    have hfound := heredoc?_eq_some_iff.2 ⟨marker, header, v, hheader, rfl, rfl⟩
    exact absurd (h.symm.trans hfound) (by simp)

/-- Whether a heredoc is read up to some place before a stop is decided by the text before it. -/
theorem heredoc?_stop_iff (hm : IsStop m) :
    heredoc? (w ++ m :: z) = some (.ok n) ∧ n ≤ w.length ↔ heredoc? w = some (.ok n) := by
  have hclosed {marker body : Text} {k : Nat} :
      (.ok n : Except Fault Nat) = (match heredocTail? marker true body with
        | some tail => .ok (k + tail)
        | none => .error .unterminatedHeredoc) ↔
      ∃ tail, heredocTail? marker true body = some tail ∧ n = k + tail := by
    cases heredocTail? marker true body <;> simp
  simp only [heredoc?_eq_some_iff, hclosed]
  constructor
  · intro hparts
    obtain ⟨⟨marker, header, body, hheader, hw, tail, htail, hn⟩, hle⟩ := hparts
    obtain ⟨v, rfl⟩ : '<' :: '<' :: header <+: w := by
      have hfront : '<' :: '<' :: header <+: w ++ m :: z := ⟨body, hw.symm⟩
      refine List.prefix_of_prefix_length_le hfront (List.prefix_append w _) ?_
      simp only [List.length_cons]
      omega
    obtain rfl : v ++ m :: z = body := by simpa using hw
    have hend := (heredocTail?_stop_iff hm hheader.isName).1 ⟨htail, by
      simp only [List.cons_append, List.length_cons, List.length_append] at hle
      omega⟩
    exact ⟨marker, header, v, hheader, rfl, tail, hend, hn⟩
  · intro hparts
    obtain ⟨marker, header, v, hheader, hw, tail, htail, hn⟩ := hparts
    subst hw
    obtain ⟨htail, hle⟩ := (heredocTail?_stop_iff (z := z) hm hheader.isName).2 htail
    refine ⟨⟨marker, header, v ++ m :: z, hheader, by simp, tail, htail, hn⟩, ?_⟩
    simp only [List.length_cons, List.length_append]
    omega

end Literal

end PhpLint

import PhpLint.Directive
import PhpLint.Proofs.Lexing.Layout
import PhpLint.Proofs.Text.Cut
import PhpLint.Proofs.Text.Lines

/-!
# Directives as they are written

A directive is read from a line by cutting and trimming.  Here it is a piece of the source text: a
comment marker, the tool's name and a list of names in parentheses, with white space between the
parts (`Written`).  It counts when the tool's name does not occur before it on its line, for a line
is cut at the first occurrence.  Behind the list it may give a reason in quotes (`IsReason`).

A source allows a rule on a line exactly when a directive that names it stands on that line or on
the one before (`isAllowed_check_iff`).
-/

namespace PhpLint.Directive

/-- The parts of a directive in the source text. -/
structure Written where
  /-- What starts a comment. -/
  marker : Text
  /-- White space between the marker and the tool's name. -/
  gap : Text
  /-- White space between the tool's name and the list. -/
  pad : Text
  /-- The list between its parentheses. -/
  names : Text
  deriving DecidableEq, Repr

namespace Written

/-- The text up to the list of names. -/
def head (w : Written) : Text := w.marker ++ w.gap ++ toolName ++ w.pad ++ "allow(".toList

/-- The text from the marker to the end of the list. -/
def text (w : Written) : Text := w.head ++ w.names ++ [')']

/-- The parts are what they are named for. -/
structure IsDirective (w : Written) : Prop where
  marker : w.marker ∈ markers
  gap : ∀ c ∈ w.gap, Unicode.isSpace c = true
  pad : ∀ c ∈ w.pad, Unicode.isSpace c = true
  names : ')' ∉ w.names

/-- The list names the rule, or all rules. -/
def Names (w : Written) (rule : Text) : Prop :=
  rule ∈ rulesOf w.names ∨ "all".toList ∈ rulesOf w.names

end Written

/-- The text behind a list that gives a reason in quotes. -/
inductive IsReason : Text → Text → Prop
  | quoted {gap pad reason : Text} (hgap : ∀ c ∈ gap, Unicode.isSpace c = true)
      (hpad : ∀ c ∈ pad, Unicode.isSpace c = true) (hreason : '"' ∉ reason) :
      IsReason (gap ++ ("reason=".toList ++ pad ++ '"' :: reason) ++ ['"']) reason

/-! ## On a line -/

variable {w : Written} {line rest before rule : Text} {d : Directive}

/-- White space in front of a list does not count. -/
theorem rulesOf_append {front : Text} (h : ∀ c ∈ front, Unicode.isSpace c = true) (t : Text) :
    rulesOf (front ++ t) = rulesOf t := by
  have hcomma : ',' ∉ front := fun hmem => absurd (h ',' hmem) (by decide)
  cases hpieces : Text.splitOn ',' t with
  | nil => exact absurd hpieces (Text.splitOn_ne_nil ',' t)
  | cons piece pieces =>
    have htrim : Text.trim (front ++ piece) = Text.trim piece := by
      rw [Text.trim, Text.trimStartOf_append_of_all h, Text.trim]
    rw [rulesOf, rulesOf, Text.splitOn_append hcomma hpieces, hpieces, List.map_cons, htrim,
      List.map_cons]

/-- What trimming takes away on both sides is white space. -/
theorem space_of_mem_trim (t : Text) :
    ∃ front back, t = front ++ Text.trim t ++ back ∧ (∀ c ∈ front, Unicode.isSpace c = true) ∧
      ∀ c ∈ back, Unicode.isSpace c = true := by
  obtain ⟨front, hfront, hspace⟩ := Text.exists_append_trimStartOf Unicode.isSpace t
  obtain ⟨back, hback, hspace'⟩ :=
    Text.exists_trimEndOf_append Unicode.isSpace (Text.trimStartOf Unicode.isSpace t)
  refine ⟨front, back, ?_, hspace, hspace'⟩
  rw [List.append_assoc]
  exact hfront.trans (congrArg _ hback)

/-- Text between white space, up to a character that is none, is left when the white space is
trimmed. -/
theorem trim_append_cons {front t : Text} {c : Char} (h : ∀ c ∈ front, Unicode.isSpace c = true)
    (hfirst : ∀ d ∈ (t ++ [c]).head?, Unicode.isSpace d = false) (hc : Unicode.isSpace c = false)
    (back : Text) : Text.trim (front ++ t ++ c :: back) = t ++ c :: Text.trimEnd back := by
  have hstart : Text.trimStartOf Unicode.isSpace (t ++ c :: back) = t ++ c :: back := by
    cases t with
    | nil => exact Text.trimStartOf_cons hc back
    | cons d t => exact Text.trimStartOf_cons (hfirst d rfl) _
  rw [Text.trim, List.append_assoc, Text.trimStartOf_append_of_all h, hstart, Text.trimEnd,
    Text.trimEndOf_append_cons hc]
  rfl

/-- Neither the marker nor the white space behind it holds a character of the tool's name. -/
theorem Written.IsDirective.separated (h : w.IsDirective) :
    ∀ c ∈ w.marker ++ w.gap, c ∉ toolName := by
  intro c hc hmem
  rcases List.mem_append.1 hc with hc | hc
  · have hmarkers : ∀ marker ∈ markers, marker.any toolName.contains = false := by decide
    exact List.any_eq_false.1 (hmarkers _ h.marker) c hc (List.contains_iff_mem.2 hmem)
  · have hspaces : toolName.any Unicode.isSpace = false := by decide
    exact List.any_eq_false.1 hspaces c hmem (h.gap c hc)

/-- A marker ends in no white space. -/
theorem trimEnd_append_marker {marker : Text} (h : marker ∈ markers) (before : Text) :
    Text.trimEnd (before ++ marker) = before ++ marker := by
  have hlast : ∀ marker ∈ markers, marker.getLast?.any (!Unicode.isSpace ·) = true := by decide
  obtain ⟨c, hc, hspace⟩ := (Option.any_eq_true _ _).1 (hlast marker h)
  rw [← List.dropLast_append_getLast? c hc, ← List.append_assoc]
  exact Text.trimEndOf_append_cons (by simpa using hspace) _ []

/-- The list is cut at its closing parenthesis, and its names are those that are written. -/
theorem cut_names {names : Text} (h : ')' ∉ names) (rest : Text) :
    ∃ names', Text.cut [')'] (Text.trim (names ++ ')' :: rest)) =
        some (names', Text.trimEnd rest) ∧ rulesOf names' = rulesOf names := by
  obtain ⟨front, hfront, hspace⟩ := Text.exists_append_trimStartOf Unicode.isSpace names
  have hclosed : ')' ∉ Text.trimStartOf Unicode.isSpace names := fun hmem =>
    h ((List.dropWhile_suffix _).subset hmem)
  have hfirst : ∀ d ∈ (Text.trimStartOf Unicode.isSpace names ++ [')']).head?,
      Unicode.isSpace d = false := by
    intro d hd
    cases hnames : Text.trimStartOf Unicode.isSpace names with
    | nil =>
      rw [hnames] at hd
      obtain rfl := Option.some.inj hd
      decide
    | cons e names' =>
      apply Text.eq_false_of_mem_head?_trimStartOf (t := names)
      rw [hnames] at hd ⊢
      exact hd
  have htrim : Text.trim (names ++ ')' :: rest) =
      Text.trimStartOf Unicode.isSpace names ++ ')' :: Text.trimEnd rest := by
    conv_lhs => rw [hfront]
    exact trim_append_cons hspace hfirst (by decide) rest
  refine ⟨_, Text.cut_singleton_iff.2 ⟨htrim, hclosed⟩, ?_⟩
  conv_rhs => rw [hfront]
  exact (rulesOf_append hspace _).symm

/-- A reason ends in its quote, so it stands in front of a text when it does so without the white space
at the end. -/
theorem IsReason.prefix_trimEnd_iff {t reason : Text} (h : IsReason t reason) (rest : Text) :
    t <+: Text.trimEnd rest ↔ t <+: rest := by
  constructor
  · intro hbegins
    obtain ⟨tail, htail, -⟩ := Text.exists_trimEndOf_append Unicode.isSpace rest
    rw [htail]
    exact hbegins.trans (List.prefix_append _ tail)
  · intro ⟨tail, htail⟩
    -- The quote at the end is not trimmed.
    obtain ⟨hgap, hpad, hreason⟩ := h
    refine ⟨Text.trimEnd tail, ?_⟩
    rw [← htail, Text.trimEnd, Text.trimEnd, List.append_assoc _ _ tail, List.singleton_append,
      Text.trimEndOf_append_cons (by decide), List.append_assoc _ ['"'], List.singleton_append]

/-- White space at the end does not count. -/
theorem IsReason.prefix_append_iff {t reason back : Text} (h : IsReason t reason)
    (hback : ∀ c ∈ back, Unicode.isSpace c = true) (rest : Text) :
    t <+: rest ++ back ↔ t <+: rest := by
  rw [← h.prefix_trimEnd_iff, Text.trimEnd, Text.trimEndOf_append_of_all hback, ← Text.trimEnd,
    h.prefix_trimEnd_iff]

/-- The reason that is read is the one that is written. -/
theorem reasonOf_trim_eq_some_iff {reason : Text} :
    reasonOf (Text.trim rest) = some reason ↔ ∃ t, IsReason t reason ∧ t <+: rest := by
  constructor
  · intro h
    simp only [reasonOf, Option.bind_eq_bind, Option.bind_eq_some_iff] at h
    obtain ⟨value, hvalue, inside, hinside, ⟨reason, after⟩, hcut, h⟩ := h
    obtain rfl := Option.some.inj h
    obtain ⟨hcut, hreason⟩ := Text.cut_singleton_iff.1 hcut
    obtain ⟨gap, back, hrest, hgap, -⟩ := space_of_mem_trim rest
    obtain ⟨pad, back', hvalue', hpad, -⟩ := space_of_mem_trim value
    rw [Text.stripStart_eq_some_iff.1 hinside, hcut] at hvalue'
    rw [Text.stripStart_eq_some_iff.1 hvalue, hvalue'] at hrest
    exact ⟨_, .quoted hgap hpad hreason, after ++ back' ++ back, by rw [hrest]; simp⟩
  · intro ⟨t, ht, tail, htail⟩
    cases ht with
    | quoted hgap hpad hreason =>
      rename_i gap pad
      have hrest : Text.trim rest =
          "reason=".toList ++ (pad ++ '"' :: reason ++ '"' :: Text.trimEnd tail) := by
        have hfirst : ∀ d ∈ ("reason=".toList ++ pad ++ '"' :: reason ++ ['"']).head?,
            Unicode.isSpace d = false := by
          intro d hd
          obtain rfl := Option.some.inj hd
          decide
        rw [← htail, List.append_assoc _ ['"'], List.singleton_append,
          trim_append_cons hgap hfirst (by decide)]
        simp
      have hvalue : Text.trim (pad ++ '"' :: reason ++ '"' :: Text.trimEnd tail) =
          ['"'] ++ (reason ++ '"' :: Text.trimEnd (Text.trimEnd tail)) := by
        have hfirst : ∀ d ∈ ('"' :: reason ++ ['"']).head?, Unicode.isSpace d = false := by
          intro d hd
          obtain rfl := Option.some.inj hd
          decide
        rw [trim_append_cons hpad hfirst (by decide)]
        simp
      rw [reasonOf, hrest, Option.bind_eq_bind, Text.stripStart_eq_some_iff.2 rfl,
        Option.bind_some, hvalue, Text.stripStart_eq_some_iff.2 rfl]
      simp only [Option.bind_eq_bind, Option.bind_some,
        Text.cut_singleton_iff.2 ⟨rfl, hreason⟩]

/-- A line with a directive behind text that does not hold the tool's name is read as directed. -/
theorem ofLine?_of_written (h : w.IsDirective) (hfirst : ¬toolName <:+: before)
    (hnames : rulesOf w.names ≠ []) (rest : Text) :
    ∃ d, ofLine? (before ++ w.text ++ rest) = some d ∧ d.rules = rulesOf w.names ∧
      ∀ reason, d.reason = some reason ↔ ∃ t, IsReason t reason ∧ t <+: rest := by
  have hmarker : w.marker ++ w.gap ≠ [] := by
    intro hnil
    have hempty := h.marker
    rw [(List.append_eq_nil_iff.1 hnil).1] at hempty
    revert hempty
    decide
  have hline : before ++ w.text ++ rest = before ++ (w.marker ++ w.gap) ++ toolName ++
      (w.pad ++ ("allow(".toList ++ w.names) ++ ')' :: rest) := by
    simp [Written.text, Written.head]
  have hname : toolName ≠ [] := by decide
  have hcut := Text.cut_of_first hname (Text.le_of_separated hmarker hname h.separated hfirst
    (w.pad ++ ("allow(".toList ++ w.names) ++ ')' :: rest))
  have hends : (markers.any fun marker =>
      Text.endsWith marker (Text.trimEnd (before ++ (w.marker ++ w.gap)))) = true := by
    refine List.any_eq_true.2 ⟨w.marker, h.marker, ?_⟩
    rw [← List.append_assoc, Text.trimEnd, Text.trimEndOf_append_of_all h.gap, ← Text.trimEnd,
      trimEnd_append_marker h.marker, Text.endsWith, List.isSuffixOf_iff_suffix]
    exact List.suffix_append before w.marker
  have hallow : Text.trim (w.pad ++ ("allow(".toList ++ w.names) ++ ')' :: rest) =
      "allow(".toList ++ (w.names ++ ')' :: Text.trimEnd rest) := by
    have hfirst : ∀ d ∈ ("allow(".toList ++ w.names ++ [')']).head?, Unicode.isSpace d = false := by
      intro d hd
      obtain rfl := Option.some.inj hd
      decide
    rw [trim_append_cons h.pad hfirst (by decide), List.append_assoc]
  have hstrip := Text.stripStart_eq_some_iff.2 hallow
  obtain ⟨names', hlist, hrules⟩ := cut_names h.names (Text.trimEnd rest)
  have hsome : (rulesOf names').isEmpty = false := by
    rw [hrules, List.isEmpty_eq_false_iff]
    exact hnames
  rw [hline, ofLine?, hcut]
  simp only [Option.bind_eq_bind, Option.bind_some, hends, if_true, hstrip, hlist, hsome,
    Bool.false_eq_true, if_false, Option.some.injEq, exists_eq_left']
  refine ⟨hrules, fun reason => reasonOf_trim_eq_some_iff.trans ?_⟩
  refine exists_congr fun t => and_congr_right fun ht => ?_
  rw [ht.prefix_trimEnd_iff, ht.prefix_trimEnd_iff]

/-- A directive that is read from a line is written there, the first time that the tool is named. -/
theorem exists_written_of_ofLine? (h : ofLine? line = some d) :
    ∃ before w rest, Written.IsDirective w ∧ line = before ++ w.text ++ rest ∧
      ¬toolName <:+: before ∧ d.rules = rulesOf w.names ∧
      ∀ reason, d.reason = some reason ↔ ∃ t, IsReason t reason ∧ t <+: rest := by
  simp only [ofLine?, Option.bind_eq_bind, Option.bind_eq_some_iff] at h
  obtain ⟨⟨front, after⟩, hcut, h⟩ := h
  dsimp only at h
  split at h
  · next hends =>
    simp only [Option.bind_eq_some_iff] at h
    obtain ⟨list, hlist, ⟨names, rest⟩, hnames, h⟩ := h
    dsimp only at h
    split at h
    · cases h
    · obtain rfl := Option.some.inj h
      obtain ⟨marker, hmarker, hend⟩ := List.any_eq_true.1 hends
      rw [Text.endsWith, List.isSuffixOf_iff_suffix] at hend
      obtain ⟨before, hbefore⟩ := hend
      obtain ⟨gap, hgap, hgapSpace⟩ := Text.exists_trimEndOf_append Unicode.isSpace front
      obtain ⟨pad, back, hafter, hpad, hback⟩ := space_of_mem_trim after
      obtain ⟨pad', back', hlist', hinner, hback'⟩ := space_of_mem_trim list
      rw [Text.stripStart_eq_some_iff.1 hlist] at hafter
      obtain ⟨htrim, hclosed⟩ := Text.cut_singleton_iff.1 hnames
      rw [htrim] at hlist'
      rw [← Text.trimEnd, ← hbefore] at hgap
      have hline := Text.cut_eq_some_append hcut
      refine ⟨before, ⟨marker, gap, pad, pad' ++ names⟩, rest ++ back' ++ back,
        ⟨hmarker, hgapSpace, hpad, ?_⟩, ?_, ?_, ?_, ?_⟩
      · intro hmem
        rcases List.mem_append.1 hmem with hmem | hmem
        · exact absurd (hinner ')' hmem) (by decide)
        · exact hclosed hmem
      · rw [hline, hgap, hafter, hlist']
        simp [Written.text, Written.head]
      · intro ⟨b, a, hinfix⟩
        have hle := Text.le_of_cut hcut b (a ++ marker ++ gap ++ toolName ++ after)
          (by rw [hline, hgap, ← hinfix]; simp)
        have hlong : 0 < toolName.length := by decide
        rw [hgap, ← hinfix] at hle
        simp only [List.length_append] at hle
        omega
      · exact (rulesOf_append hinner names).symm
      · intro reason
        refine reasonOf_trim_eq_some_iff.trans (exists_congr fun t => and_congr_right fun ht => ?_)
        rw [ht.prefix_append_iff hback, ht.prefix_append_iff hback']
  · cases h

/-! ## In a source -/

/-- Behind a line feed a text without one is the last line. -/
theorem lastLine_append {front t : Text} (hstart : front = [] ∨ ∃ f, front = f ++ ['\n'])
    (ht : '\n' ∉ t) : Text.lastLine (front ++ t) = t := by
  rcases hstart with rfl | ⟨f, rfl⟩
  · exact Text.lastLine_of_not_mem ht
  · have hplain : ∀ c ∈ t.reverse, (c != '\n') = true := by
      intro c hc
      rw [bne_iff_ne]
      rintro rfl
      exact ht (List.mem_reverse.1 hc)
    have hreverse : (f ++ ['\n'] ++ t).reverse = t.reverse ++ '\n' :: f.reverse := by simp
    rw [Text.lastLine, List.rtakeWhile, hreverse, List.takeWhile_append_of_pos hplain]
    simp

/-- A text falls into what ends with its last line feed and the characters behind it. -/
theorem exists_append_lastLine (t : Text) :
    ∃ front, t = front ++ Text.lastLine t ∧ (front = [] ∨ ∃ f, front = f ++ ['\n']) ∧
      '\n' ∉ Text.lastLine t := by
  refine ⟨t.rdropWhile (· != '\n'), List.rdropWhile_append_rtakeWhile.symm, ?_, ?_⟩
  · rcases List.eq_nil_or_concat (t.rdropWhile (· != '\n')) with hnil | ⟨f, c, hf⟩
    · exact .inl hnil
    · rw [List.concat_eq_append] at hf
      have hlast := List.rdropWhile_last_not (· != '\n') t (by rw [hf]; simp)
      simp only [hf, List.getLast_append_singleton, bne_iff_ne, ne_eq, not_not] at hlast
      exact .inr ⟨f, by rw [hf, hlast]⟩
  · intro hmem
    have hne := List.mem_rtakeWhile_imp hmem
    simp at hne

/-- Text on a line stands in the source behind as many line feeds as there are lines before it. -/
theorem exists_front_of_line {source text : Text} {k : Nat}
    (h : (Text.lines source)[k]? = some (before ++ text ++ rest)) :
    ∃ front, front ++ text <+: source ∧ front.count '\n' = k ∧ Text.lastLine front = before ∧
      '\n' ∉ text := by
  obtain ⟨front, piece, after, hpiece, hcount, back, hback⟩ := Text.exists_isPiece_of_lines h
  have hfree := hpiece.free
  rw [← hback, List.append_assoc, List.append_assoc, List.mem_append, not_or, List.mem_append,
    not_or] at hfree
  refine ⟨front ++ before, ⟨rest ++ back ++ after, ?_⟩, ?_,
    lastLine_append hpiece.start hfree.1, hfree.2.1⟩
  · rw [hpiece.text, ← hback]
    simp
  · rw [List.count_append, hcount, List.count_eq_zero.2 hfree.1, Nat.add_zero]

/-- Text that stands in the source without a line feed stands on a line, if it does not end in a
carriage return. -/
theorem exists_line_of_front {source front text : Text} {c : Char}
    (h : front ++ (text ++ [c]) <+: source) (hfeed : '\n' ∉ text ++ [c]) (hc : c ≠ '\r') :
    ∃ rest, (Text.lines source)[front.count '\n']? =
        some (Text.lastLine front ++ (text ++ [c]) ++ rest) ∧
      front ++ (text ++ [c]) ++ rest <+: source ∧ '\n' ∉ rest := by
  obtain ⟨tail, htail⟩ := h
  obtain ⟨start, hfront, hstart, hlast⟩ := exists_append_lastLine front
  have hfree : '\n' ∉ tail.takeWhile (· != '\n') := Text.notMem_takeWhile rfl tail
  have hbegins : front ++ (text ++ [c]) ++ tail.takeWhile (· != '\n') <+: source := by
    rw [← htail]
    exact (List.prefix_append_right_inj _).2 (List.takeWhile_prefix _)
  have hpiece : Text.IsPiece '\n' source start
      (Text.lastLine front ++ (text ++ [c]) ++ tail.takeWhile (· != '\n'))
      (tail.dropWhile (· != '\n')) := by
    constructor
    case text =>
      rw [← htail]
      conv_lhs => rw [hfront]
      simp [List.takeWhile_append_dropWhile]
    case free =>
      rw [List.mem_append, List.mem_append, not_or, not_or]
      exact ⟨⟨hlast, hfeed⟩, hfree⟩
    case start => exact hstart
    case stop =>
      cases hback : tail.dropWhile (· != '\n') with
      | nil => exact .inl rfl
      | cons d back =>
        have hhead := List.head?_dropWhile_not (· != '\n') tail
        rw [hback] at hhead
        simp at hhead
        exact .inr ⟨back, by rw [hhead]⟩
  have hcount : front.count '\n' = start.count '\n' := by
    conv_lhs => rw [hfront]
    rw [List.count_append, List.count_eq_zero.2 hlast, Nat.add_zero]
  obtain ⟨line, hline, heq⟩ := Text.exists_line hpiece (by simp)
  rw [hcount, hline]
  rcases heq with rfl | heq
  · exact ⟨_, rfl, hbegins, hfree⟩
  · -- The return at the end of the piece stands behind the text.
    rcases List.eq_nil_or_concat (tail.takeWhile (· != '\n')) with hnil | ⟨back, d, hback⟩
    · rw [hnil, List.append_nil, ← List.append_assoc] at heq
      exact absurd (List.cons.inj (List.append_inj' heq rfl).2).1.symm hc
    · rw [hback, List.concat_eq_append] at hbegins hfree
      rw [hback, List.concat_eq_append, ← List.append_assoc] at heq
      rw [List.mem_append, not_or] at hfree
      rw [← List.append_assoc] at hbegins
      exact ⟨back, congrArg some (List.append_inj' heq rfl).1,
        (List.prefix_append _ [d]).trans hbegins, hfree.1⟩

/-- A directive stands on a line of a source, behind the text `front`.  All of it stands on that
line, and the tool is not named there before. -/
structure Stands (source : Text) (line : Nat) (front : Text) (w : Written) : Prop where
  directive : w.IsDirective
  text : front ++ w.text <+: source
  line : line = 1 + front.count '\n'
  unbroken : '\n' ∉ w.text
  first : ¬toolName <:+: Text.lastLine front

/-- A directive behind the text `front` of a source gives a reason on its line. -/
def Gives (source front : Text) (w : Written) (reason : Text) : Prop :=
  ∃ t, IsReason t reason ∧ front ++ (w.text ++ t) <+: source ∧ '\n' ∉ t

variable {source front reason : Text} {n k : Nat}

/-- A directive covers a rule when its list names the rule. -/
theorem covers_iff (hrules : d.rules = rulesOf w.names) : d.covers rule = true ↔ w.Names rule := by
  simp [covers, Written.Names, hrules]

/-- A directive gives the reason that stands behind it on its line. -/
theorem gives_iff (hline : (Text.lines source)[front.count '\n']? =
      some (Text.lastLine front ++ w.text ++ rest))
    (htext : front ++ w.text ++ rest <+: source) (hfeed : '\n' ∉ w.text ++ rest) :
    Gives source front w reason ↔ ∃ t, IsReason t reason ∧ t <+: rest := by
  rw [List.mem_append, not_or] at hfeed
  refine exists_congr fun t => and_congr_right fun ht => ⟨?_, ?_⟩
  · intro ⟨hbegins, hfree⟩
    obtain ⟨s, hs⟩ : ∃ s, w.text ++ t = s ++ ['"'] := by
      cases ht
      exact ⟨_, (List.append_assoc ..).symm⟩
    have hfree : '\n' ∉ s ++ ['"'] := by
      rw [← hs, List.mem_append, not_or]
      exact ⟨hfeed.1, hfree⟩
    obtain ⟨rest', hline', -⟩ := exists_line_of_front (hs ▸ hbegins) hfree (by decide)
    rw [hline, ← hs, ← List.append_assoc, List.append_assoc _ t] at hline'
    have hrest := List.append_cancel_left (Option.some.inj hline')
    exact ⟨rest', hrest.symm⟩
  · intro ⟨tail, htail⟩
    rw [← htail, List.mem_append, not_or] at hfeed
    refine ⟨List.IsPrefix.trans ⟨tail, ?_⟩ htext, hfeed.2.1⟩
    rw [← htail]
    simp

/-- The directive that covers a rule on a line stands there, with its reason. -/
theorem exists_stands_of_onLine? (h : onLine? (Text.lines source) rule n = some d) :
    ∃ front w, Stands source n front w ∧ w.Names rule ∧
      ∀ reason, d.reason = some reason ↔ Gives source front w reason := by
  unfold onLine? at h
  split at h
  · cases h
  · obtain ⟨line, hline, hd⟩ := Option.bind_eq_some_iff.1 h
    obtain ⟨hd, hrule⟩ := Option.filter_eq_some_iff.1 hd
    obtain ⟨before, w, rest, hdirective, rfl, hfirst, hrules, hreason⟩ :=
      exists_written_of_ofLine? hd
    have hline' : (Text.lines source)[n - 1]? = some (before ++ (w.text ++ rest) ++ []) := by
      rw [hline, List.append_nil, List.append_assoc]
    obtain ⟨front, htext, hcount, hlast, hfeed⟩ := exists_front_of_line hline'
    rw [← List.append_assoc] at htext
    have hgives (reason : Text) : Gives source front w reason ↔ _ :=
      gives_iff (by rw [hcount, hlast, hline]) htext hfeed
    rw [List.mem_append, not_or] at hfeed
    exact ⟨front, w, ⟨hdirective, (List.prefix_append _ rest).trans htext, by omega, hfeed.1,
        hlast ▸ hfirst⟩,
      (covers_iff hrules).1 hrule, fun reason => (hreason reason).trans (hgives reason).symm⟩

/-- A directive that stands on a line and names a rule covers it there, with its reason. -/
theorem Stands.exists_onLine?_eq (h : Stands source n front w) (hrule : w.Names rule) :
    ∃ d, onLine? (Text.lines source) rule n = some d ∧
      ∀ reason, d.reason = some reason ↔ Gives source front w reason := by
  obtain ⟨rest, hline, htext, hfree⟩ := exists_line_of_front h.text h.unbroken (by decide)
  rw [show w.head ++ w.names ++ [')'] = w.text from rfl] at hline htext
  have hnames : rulesOf w.names ≠ [] := by
    intro hnil
    simp [Written.Names, hnil] at hrule
  obtain ⟨d, hd, hrules, hreason⟩ := ofLine?_of_written h.directive h.first hnames rest
  have hzero : n ≠ 0 := by
    have := h.line
    omega
  have hindex : n - 1 = front.count '\n' := by
    have := h.line
    omega
  have hfeed : '\n' ∉ w.text ++ rest := by
    rw [List.mem_append, not_or]
    exact ⟨h.unbroken, hfree⟩
  refine ⟨d, ?_, fun reason => (hreason reason).trans (gives_iff hline htext hfeed).symm⟩
  rw [onLine?, if_neg hzero, hindex, hline, Option.bind_some, hd, Option.filter_some,
    if_pos ((covers_iff hrules).2 hrule)]

/-- A line allows a rule when a directive that names it stands there. -/
theorem isSome_onLine?_iff :
    (onLine? (Text.lines source) rule n).isSome = true ↔
      ∃ front w, Stands source n front w ∧ w.Names rule := by
  constructor
  · intro h
    obtain ⟨d, hd⟩ := Option.isSome_iff_exists.1 h
    obtain ⟨front, w, hstands, hrule, -⟩ := exists_stands_of_onLine? hd
    exact ⟨front, w, hstands, hrule⟩
  · intro ⟨front, w, hstands, hrule⟩
    obtain ⟨d, hd, -⟩ := hstands.exists_onLine?_eq hrule
    exact Option.isSome_iff_exists.2 ⟨d, hd⟩

/-- **A rule is allowed where it is written to be.**  A source allows a rule on a line when a
directive that names it stands on that line or on the one before. -/
theorem isAllowed_check_iff {source : Text} {n : Nat} :
    (check source n rule).isAllowed = true ↔
      ∃ m front w, (m = n ∨ m + 1 = n) ∧ Stands source m front w ∧ w.Names rule := by
  have hcheck : (check source n rule).isAllowed =
      ((onLine? (Text.lines source) rule (n - 1)).or
        (onLine? (Text.lines source) rule n)).isSome := by
    simp only [check]
    split
    · next h => simp [h, Allowance.isAllowed]
    · next h => simp [h, Allowance.isAllowed]
  rw [hcheck, Option.isSome_or, Bool.or_eq_true, isSome_onLine?_iff, isSome_onLine?_iff]
  constructor
  · intro h
    rcases h with ⟨front, w, hstands, hrule⟩ | ⟨front, w, hstands, hrule⟩
    · have hline := hstands.line
      exact ⟨n - 1, front, w, by omega, hstands, hrule⟩
    · exact ⟨n, front, w, .inl rfl, hstands, hrule⟩
  · intro ⟨m, front, w, hm, hstands, hrule⟩
    rcases hm with rfl | rfl
    · exact .inr ⟨front, w, hstands, hrule⟩
    · exact .inl ⟨front, w, hstands, hrule⟩

end PhpLint.Directive

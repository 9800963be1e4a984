import PhpLint.Proofs.Directive.Written

/-!
# A directive is read back from its line

To write a directive is to choose a marker and white space, and to put them around the names of the
rules and around the reason (`Spelling`).  Reading the line gives the rules and the reason that were
written, whatever stands before the marker and behind the directive (`ofLine?_spelling`).

Three cuts decide what is read: at the tool's name, at the parenthesis that closes the list, and at the
quote that ends the reason.  Each is the first one that there is, for the text before a marker does not
name the tool, the names hold no parenthesis and the reason holds no quote.  Text further on may hold
all of these.
-/

namespace PhpLint.Directive

/-- A text of white space only. -/
def IsSpace (t : Text) : Prop := ∀ c ∈ t, Unicode.isSpace c = true

instance (t : Text) : Decidable (IsSpace t) := List.decidableBAll _ t

/-! ## The list of rules -/

/-- The name of a rule as a list holds it, with white space around it. -/
structure Entry where
  front : Text
  name : Text
  back : Text

namespace Entry

/-- The text of an entry. -/
def text (e : Entry) : Text := e.front ++ e.name ++ e.back

/-- The name says something, is trimmed, and holds nothing that would end it. -/
structure IsRule (e : Entry) : Prop where
  front : IsSpace e.front
  back : IsSpace e.back
  nonempty : e.name ≠ []
  trimmed : Text.trim e.name = e.name
  comma : ',' ∉ e.name
  closed : ')' ∉ e.name

instance (e : Entry) : Decidable e.IsRule :=
  decidable_of_iff
    (IsSpace e.front ∧ IsSpace e.back ∧ e.name ≠ [] ∧ Text.trim e.name = e.name ∧ ',' ∉ e.name ∧
      ')' ∉ e.name)
    ⟨fun ⟨hfront, hback, hne, htrim, hcomma, hclosed⟩ =>
        ⟨hfront, hback, hne, htrim, hcomma, hclosed⟩,
      fun h => ⟨h.front, h.back, h.nonempty, h.trimmed, h.comma, h.closed⟩⟩

variable {e : Entry}

/-- Trimming an entry leaves the name. -/
theorem trim_text (h : e.IsRule) : Text.trim e.text = e.name := by
  rw [text, Text.trim_append_of_all h.front h.back]
  exact h.trimmed

/-- A character that is no white space stands in an entry only if it stands in its name. -/
theorem not_mem_text {c : Char} (h : e.IsRule) (hspace : Unicode.isSpace c = false)
    (hname : c ∉ e.name) : c ∉ e.text := by
  intro hmem
  rw [text, List.mem_append, List.mem_append] at hmem
  rcases hmem with (hfront | hmem) | hback
  · have hblank := h.front c hfront
    simp [hspace] at hblank
  · exact hname hmem
  · have hblank := h.back c hback
    simp [hspace] at hblank

end Entry

/-- The entries of a list with commas between them. -/
def listText (entries : List Entry) : Text := Text.joinWith [','] (entries.map Entry.text)

variable {entries : List Entry}

/-- The rules of a list are the names of its entries, in order. -/
theorem rulesOf_listText (hne : entries ≠ []) (h : ∀ e ∈ entries, e.IsRule) :
    rulesOf (listText entries) = entries.map Entry.name := by
  have hpieces : Text.splitOn ',' (listText entries) = entries.map Entry.text := by
    apply Text.splitOn_joinWith
    · simpa using hne
    · intro piece hpiece
      obtain ⟨e, he, rfl⟩ := List.mem_map.1 hpiece
      exact Entry.not_mem_text (h e he) (by decide) (h e he).comma
  have htrim : (entries.map Entry.text).map Text.trim = entries.map Entry.name := by
    rw [List.map_map]
    apply List.map_congr_left
    intro e he
    exact Entry.trim_text (h e he)
  rw [rulesOf, hpieces, htrim]
  apply List.filter_eq_self.2
  intro name hname
  obtain ⟨e, he, rfl⟩ := List.mem_map.1 hname
  simpa using (h e he).nonempty

/-- The list ends at the parenthesis that closes it. -/
theorem closed_notMem_listText (h : ∀ e ∈ entries, e.IsRule) : ')' ∉ listText entries := by
  induction entries with
  | nil => simp [listText, Text.joinWith]
  | cons e entries ih =>
    have hfirst : ')' ∉ e.text :=
      Entry.not_mem_text (h e List.mem_cons_self) (by decide) (h e List.mem_cons_self).closed
    have hrest := ih fun e' he' => h e' (List.mem_cons_of_mem e he')
    cases entries with
    | nil => exact hfirst
    | cons next entries =>
      have hjoin : listText (e :: next :: entries) =
          e.text ++ [','] ++ listText (next :: entries) := rfl
      rw [hjoin, List.mem_append, List.mem_append]
      intro hmem
      rcases hmem with (hmem | hcomma) | hmem
      · exact hfirst hmem
      · simp at hcomma
      · exact hrest hmem

/-! ## The reason -/

/-- A reason in quotes as it stands behind a list. -/
structure Quoted where
  /-- White space behind the list. -/
  gap : Text
  /-- White space in front of the quote. -/
  pad : Text
  reason : Text

namespace Quoted

/-- The text of a reason. -/
def text (q : Quoted) : Text := q.gap ++ "reason=".toList ++ q.pad ++ ['"'] ++ q.reason ++ ['"']

/-- The reason ends where its quote does. -/
structure IsQuoted (q : Quoted) : Prop where
  gap : IsSpace q.gap
  pad : IsSpace q.pad
  reason : '"' ∉ q.reason

instance (q : Quoted) : Decidable q.IsQuoted :=
  decidable_of_iff (IsSpace q.gap ∧ IsSpace q.pad ∧ '"' ∉ q.reason)
    ⟨fun ⟨hgap, hpad, hreason⟩ => ⟨hgap, hpad, hreason⟩, fun h => ⟨h.gap, h.pad, h.reason⟩⟩

/-- What is written is a reason. -/
theorem isReason_text {q : Quoted} (h : q.IsQuoted) : IsReason q.text q.reason := by
  have htext : q.text =
      q.gap ++ ("reason=".toList ++ q.pad ++ '"' :: q.reason) ++ ['"'] := by
    simp [text]
  rw [htext]
  exact .quoted h.gap h.pad h.reason

end Quoted

/-- A text that gives a reason begins with the word for it, white space aside. -/
theorem IsReason.startsWith {t reason tail : Text} (h : IsReason t reason) (hbegins : t <+: tail) :
    "reason=".toList <+: Text.trimStartOf Unicode.isSpace tail := by
  obtain ⟨after, rfl⟩ := hbegins
  cases h with
  | quoted hgap hpad hreason =>
    rename_i gap pad
    have htext : gap ++ ("reason=".toList ++ pad ++ '"' :: reason) ++ ['"'] ++ after =
        gap ++ ('r' :: ("eason=".toList ++ pad ++ '"' :: reason ++ ['"'] ++ after)) := by
      simp
    rw [htext, Text.trimStartOf_append_of_all hgap, Text.trimStartOf_cons (by decide)]
    exact ⟨pad ++ '"' :: reason ++ ['"'] ++ after, by simp⟩

/-! ## The line -/

/-- A directive and the characters that it is written with. -/
structure Spelling where
  /-- What starts the comment. -/
  marker : Text
  /-- White space between the marker and the tool's name. -/
  gap : Text
  /-- White space between the tool's name and the list. -/
  pad : Text
  entries : List Entry
  quoted : Option Quoted

namespace Spelling

/-- The directive that is written. -/
def directive (s : Spelling) : Directive where
  rules := s.entries.map Entry.name
  reason := s.quoted.map Quoted.reason

/-- The text up to the parenthesis that closes the list. -/
def front (s : Spelling) : Text :=
  s.marker ++ s.gap ++ toolName ++ s.pad ++ "allow(".toList ++ listText s.entries ++ [')']

/-- The text of the directive. -/
def text (s : Spelling) : Text := s.front ++ (s.quoted.map Quoted.text).getD []

/-- The parts are what they are named for. -/
structure IsSpelled (s : Spelling) : Prop where
  marker : s.marker ∈ markers
  gap : IsSpace s.gap
  pad : IsSpace s.pad
  nonempty : s.entries ≠ []
  entries : ∀ e ∈ s.entries, e.IsRule
  quoted : ∀ q ∈ s.quoted, q.IsQuoted

instance (s : Spelling) : Decidable s.IsSpelled :=
  decidable_of_iff
    (markers.contains s.marker = true ∧ IsSpace s.gap ∧ IsSpace s.pad ∧ s.entries ≠ [] ∧
      (∀ e ∈ s.entries, e.IsRule) ∧ ∀ q ∈ s.quoted, q.IsQuoted)
    ⟨fun ⟨hmarker, hgap, hpad, hne, hentries, hquoted⟩ =>
        ⟨List.contains_iff_mem.1 hmarker, hgap, hpad, hne, hentries, hquoted⟩,
      fun h =>
        ⟨List.contains_iff_mem.2 h.marker, h.gap, h.pad, h.nonempty, h.entries, h.quoted⟩⟩

/-- The parts without the reason. -/
def written (s : Spelling) : Written := ⟨s.marker, s.gap, s.pad, listText s.entries⟩

/-- What is spelled is a directive as they are written. -/
theorem isDirective_written {s : Spelling} (h : s.IsSpelled) : s.written.IsDirective where
  marker := h.marker
  gap := h.gap
  pad := h.pad
  names := closed_notMem_listText h.entries

end Spelling

/-- **Reading a directive undoes writing it.**  The text before it must not name the tool, and where no
reason is written, the text behind it must not begin to give one. -/
theorem ofLine?_spelling {s : Spelling} {before tail : Text} (h : s.IsSpelled)
    (hbefore : ¬toolName <:+: before)
    (htail : s.quoted = none → ¬"reason=".toList <+: Text.trimStartOf Unicode.isSpace tail) :
    ofLine? (before ++ s.text ++ tail) = some s.directive := by
  have hrules : rulesOf s.written.names = s.entries.map Entry.name :=
    rulesOf_listText h.nonempty h.entries
  have hsome : rulesOf s.written.names ≠ [] := by
    rw [hrules]
    simpa using h.nonempty
  let rest := (s.quoted.map Quoted.text).getD [] ++ tail
  have hline : before ++ s.text ++ tail = before ++ s.written.text ++ rest := by
    simp [rest, Spelling.text, Spelling.front, Spelling.written, Written.text, Written.head]
  obtain ⟨d, hread, hnames, hreason⟩ :=
    ofLine?_of_written (Spelling.isDirective_written h) hbefore hsome rest
  have hsame : d.reason = s.quoted.map Quoted.reason := by
    cases hquoted : s.quoted with
    | none =>
      cases hd : d.reason with
      | none => rfl
      | some reason =>
        obtain ⟨t, ht, hbegins⟩ := (hreason reason).1 hd
        have htext : rest = tail := by simp [rest, hquoted]
        rw [htext] at hbegins
        exact absurd (ht.startsWith hbegins) (htail hquoted)
    | some q =>
      apply (hreason q.reason).2
      refine ⟨q.text, Quoted.isReason_text (h.quoted q (by simp [hquoted])), ?_⟩
      have htext : rest = q.text ++ tail := by simp [rest, hquoted]
      rw [htext]
      exact List.prefix_append q.text tail
  rw [hline, hread]
  obtain ⟨rules, reason⟩ := d
  simp only [Spelling.directive, Option.some.injEq, Directive.mk.injEq]
  exact ⟨hnames.trans hrules, hsame⟩

/-- The code holds a marker and a list, the reason a directive of its own, and the text behind it another
reason; in the second line something else than a reason follows the list. -/
theorem ofLine?_spelling_misleading :
    ofLine? ("f('// allow(a)'); /*\tphp-standards:allow( yoda-condition ,all) reason= " ++
        "\"# php-standards: allow(b), c)\" reason=\"none\" */").toList =
      some ⟨["yoda-condition".toList, "all".toList],
        some "# php-standards: allow(b), c)".toList⟩ ∧
    ofLine? "# php-standards: allow(all) (reason=\"here\")".toList =
      some ⟨["all".toList], none⟩ := by
  constructor
  · let s : Spelling :=
      { marker := "/*".toList, gap := ['\t'], pad := []
        entries := [⟨[' '], "yoda-condition".toList, [' ']⟩, ⟨[], "all".toList, []⟩]
        quoted := some ⟨[' '], [' '], "# php-standards: allow(b), c)".toList⟩ }
    let before : Text := "f('// allow(a)'); ".toList
    let tail : Text := " reason=\"none\" */".toList
    have hspelled : s.IsSpelled := by decide +kernel
    have hbefore : ¬toolName <:+: before := by decide +kernel
    have hread : ofLine? (before ++ s.text ++ tail) = some s.directive := by
      apply ofLine?_spelling hspelled hbefore
      intro hnone
      cases hnone
    exact (congrArg ofLine? (by decide +kernel)).trans hread
  · let s : Spelling :=
      { marker := ['#'], gap := [' '], pad := [' ']
        entries := [⟨[], "all".toList, []⟩]
        quoted := none }
    let tail : Text := " (reason=\"here\")".toList
    have hspelled : s.IsSpelled := by decide +kernel
    have htail : ¬"reason=".toList <+: Text.trimStartOf Unicode.isSpace tail := by decide +kernel
    have hread : ofLine? ([] ++ s.text ++ tail) = some s.directive :=
      ofLine?_spelling hspelled (by decide) fun _ => htail
    exact hread

end PhpLint.Directive

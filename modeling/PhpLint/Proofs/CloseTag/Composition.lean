import PhpLint.Proofs.CloseTag.Scan

/-!
# Sources behind a closing tag

Text outside of code is where a source starts, and text outside of code is what a closing tag goes
back to.  So a source that ends with a closing tag may be followed by any other source: the scan of
the second starts where it would start alone, and the scan of the first has looked at nothing of it
(`Scan.ofText_append`).  What changes are the places.  A place of the second source moves by the bytes
and the line feeds of the first, and on its first line by the columns of the last line of the first
(`Position.behind`).

Two things that may stand at the front of a source are read otherwise behind a tag.  A byte order mark
is no mark there, and a line feed belongs to a tag that has none.
-/

namespace PhpLint

open Token (mark withoutMark origin)

/-! ## Places behind a text -/

/-- The columns that the last line of a source takes.  The byte order mark takes none. -/
def Token.lastWidth (a : Text) : Nat := (Text.lastLine (withoutMark a)).length

/-- A place of a source, once `a` stands in front of it. -/
def Position.behind (a : Text) (q : Position) : Position where
  line := q.line + a.count '\n'
  column := if q.line = 1 then q.column + Token.lastWidth a else q.column
  offset := q.offset + Text.utf8Length a

/-- A token of a source, once `a` stands in front of it. -/
def Token.behind (a : Text) (t : Token) : Token :=
  { t with
    line := (t.position.behind a).line
    column := (t.position.behind a).column
    offset := (t.position.behind a).offset }

/-- What a source leaves open, once `a` stands in front of it. -/
def LexError.behind (a : Text) (e : LexError) : LexError :=
  { e with
    line := e.line + a.count '\n'
    column := if e.line = 1 then e.column + Token.lastWidth a else e.column }

variable {a b : Text}

namespace Position

/-- Lines are counted from one, so no text leads to a line before the first. -/
theorem line_pos_past {q : Position} (hq : 0 < q.line) (t : Text) : 0 < (q.past t).line := by
  rw [line_past]
  omega

/-- A character moves a place the same way with a source in front. -/
theorem behind_next {q : Position} (hq : 0 < q.line) (a : Text) (c : Char) :
    (q.behind a).next c = (q.next c).behind a := by
  by_cases hc : c = '\n'
  · -- Behind a line feed no column is left to move.
    simp [next, behind, hc, Nat.ne_of_gt hq, Nat.add_right_comm]
  · by_cases hline : q.line = 1 <;> simp [next, behind, hc, hline, Nat.add_right_comm]

/-- A text moves a place the same way with a source in front. -/
theorem behind_past {q : Position} (hq : 0 < q.line) (a t : Text) :
    (q.behind a).past t = (q.past t).behind a := by
  induction t generalizing q with
  | nil => rfl
  | cons c t ih =>
    have hnext : 0 < (q.next c).line := line_pos_past hq [c]
    calc (q.behind a).past (c :: t) = ((q.behind a).next c).past t := rfl
      _ = ((q.next c).behind a).past t := by rw [behind_next hq]
      _ = (q.past (c :: t)).behind a := ih hnext

/-- A source ends where the start of a source goes once it stands behind. -/
theorem past_origin (a : Text) : (origin a).past (withoutMark a) = start.behind a := by
  have hcount := congrArg (List.count '\n') (Token.mark_append_withoutMark a)
  rw [List.count_append, Token.count_mark, Nat.zero_add] at hcount
  have hbytes := congrArg Text.utf8Length (Token.mark_append_withoutMark a)
  rw [Text.utf8Length_append] at hbytes
  calc (origin a).past (withoutMark a)
      = ⟨((origin a).past (withoutMark a)).line, ((origin a).past (withoutMark a)).column,
          ((origin a).past (withoutMark a)).offset⟩ := rfl
    _ = ⟨1 + a.count '\n', 1 + Token.lastWidth a, Text.utf8Length a⟩ := by
      -- A source starts in the column that a line feed goes back to.
      rw [line_past, column_past, offset_past, hcount]
      dsimp only [origin]
      rw [ite_self, hbytes]
      rfl
    _ = start.behind a := by simp [behind, start]

end Position

namespace Token

/-- The tokens of two lists of lexemes are those of the first, and those of the second from its end on.
-/
theorem place_append (p : Position) (ls ls' : List Lexeme) :
    place p (ls ++ ls') = place p ls ++ place (p.past (Lexeme.spell ls)) ls' := by
  induction ls generalizing p with
  | nil => rfl
  | cons l ls ih => simp [place, ih]

/-- Tokens that start at a moved place are the moved tokens. -/
theorem place_behind {q : Position} (hq : 0 < q.line) (a : Text) (ls : List Lexeme) :
    place (q.behind a) ls = (place q ls).map (behind a) := by
  induction ls generalizing q with
  | nil => rfl
  | cons l ls ih =>
    rw [place, place, List.map_cons, Position.behind_past hq, ih (Position.line_pos_past hq _)]
    rfl

/-- The last token has the kind and the text of the last lexeme. -/
theorem getLast?_of_place {p : Position} {ls : List Lexeme} {t : Token}
    (h : (place p ls).getLast? = some t) : ls.getLast? = some ⟨t.kind, t.content⟩ := by
  rw [List.getLast?_eq_getElem?, length_place, getElem?_place] at h
  obtain ⟨l, hl, rfl⟩ := Option.map_eq_some_iff.1 h
  rw [List.getLast?_eq_getElem?, hl]
  rfl

/-! ## A source behind a source -/

/-- A source behind another one has no mark, and the other one keeps its own. -/
theorem mark_append (ha : a ≠ []) (b : Text) :
    mark (a ++ b) = mark a ∧ withoutMark (a ++ b) = withoutMark a ++ b := by
  obtain ⟨c, a, rfl⟩ := List.exists_cons_of_ne_nil ha
  unfold mark withoutMark
  by_cases hc : c = byteOrderMark <;> simp [hc]

variable {ts : List Token} {last : Token}

/-- The tokens of a source are those of its scan, which ends with the tag if they do. -/
theorem closedBy_of_ofSource (ha : ofSource a = .ok ts) (hlast : ts.getLast? = some last)
    (hclose : last.kind = .closeTag) :
    Scan.ClosedBy last.content (Scan.ofSource (withoutMark a)) ∧
      ts = place (origin a) (Scan.ofSource (withoutMark a)).lexemes := by
  rw [ofSource_eq] at ha
  cases hfault : (Scan.ofSource (withoutMark a)).fault with
  | some fault =>
    rw [hfault] at ha
    cases ha
  | none =>
    rw [hfault] at ha
    obtain rfl := Except.ok.inj ha
    refine ⟨⟨hfault, ?_⟩, rfl⟩
    rw [← hclose]
    exact getLast?_of_place hlast

/-- **Composition at a closing tag.**  Behind a source that ends with a closing tag, a source without
a mark, and without a line feed that the tag would take, has the tokens that it has alone, or leaves
open what it leaves open alone, only at places that lie behind the first source. -/
theorem ofSource_append (ha : ofSource a = .ok ts) (hlast : ts.getLast? = some last)
    (hclose : last.kind = .closeTag) (hmark : b.head? ≠ some byteOrderMark)
    (hfeed : last.content = ['?', '>'] → b.head? ≠ some '\n') :
    ofSource (a ++ b) =
      match ofSource b with
      | .ok us => .ok (ts ++ us.map (behind a))
      | .error e => .error (e.behind a) := by
  obtain ⟨hclosed, rfl⟩ := closedBy_of_ofSource ha hlast hclose
  have hne : a ≠ [] := by
    rintro rfl
    obtain ⟨v, e, hv⟩ := hclosed.exists_eq
    exact absurd hv.symm (by simp [withoutMark])
  obtain ⟨hmark', hwithout⟩ := mark_append hne b
  have horigin : origin (a ++ b) = origin a := by rw [origin, hmark', origin]
  have halone : origin b = .start ∧ withoutMark b = b := by
    rw [origin, mark, withoutMark, if_neg hmark, if_neg hmark]
    exact ⟨rfl, rfl⟩
  have hscan : Scan.ofSource (withoutMark (a ++ b)) =
      (Scan.ofSource b).after (Scan.ofSource (withoutMark a)).lexemes := by
    rw [hwithout]
    exact Scan.ofText_append hclosed hfeed
  -- The second source starts at the place past all of the first one.
  have hpast : (origin a).past (Lexeme.spell (Scan.ofSource (withoutMark a)).lexemes) =
      Position.start.behind a := by
    have hspell := (Scan.reads_ofText hclosed.fault_eq).spell_eq
    exact (congrArg (origin a).past hspell).trans (Position.past_origin a)
  have hstart : 0 < Position.start.line := Nat.one_pos
  rw [ofSource_eq (a ++ b), ofSource_eq b, hscan, horigin, halone.1, halone.2, Scan.fault_after,
    Scan.lexemes_after]
  cases (Scan.ofSource b).fault with
  | none =>
    simp only [place_append, hpast, place_behind hstart]
  | some fault =>
    simp only [Lexeme.spell_append, Position.past_append, hpast, Position.behind_past hstart]
    rfl

/-- Behind a template of two lines that ends with a property named like a keyword, a source goes back
to code and leaves a string open on its first line. -/
theorem ofSource_append_template :
    ∃ ts last, ofSource "é\n<?= $a->class?>".toList = .ok ts ∧ ts.getLast? = some last ∧
      last.kind = .closeTag ∧ last.content = ['?', '>'] ∧
      ofSource ("é\n<?= $a->class?>".toList ++ "<b><?= '".toList) =
        .error ⟨.unterminatedString, 2, 23⟩ := by
  have ha : (ofSource "é\n<?= $a->class?>".toList).map (·.getLast?) =
      .ok (some ⟨.closeTag, "?>".toList, 2, 14, 16⟩) := by decide +kernel
  have hb : ofSource "<b><?= '".toList = .error ⟨.unterminatedString, 1, 8⟩ := by decide +kernel
  cases hts : ofSource "é\n<?= $a->class?>".toList with
  | error e =>
    rw [hts] at ha
    cases ha
  | ok ts =>
    rw [hts] at ha
    have hlast := Except.ok.inj ha
    have hsplit := ofSource_append (b := "<b><?= '".toList) hts hlast rfl (by decide)
      (fun _ => by decide)
    rw [hb] at hsplit
    exact ⟨ts, _, rfl, hlast, rfl, rfl, hsplit⟩

end Token

end PhpLint

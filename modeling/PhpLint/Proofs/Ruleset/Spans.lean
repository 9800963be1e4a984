import PhpLint.Diagnostic
import PhpLint.Proofs.LineEnds.Invariance
import PhpLint.Proofs.Lexing.ByteSlice
import PhpLint.Proofs.Lexing.Positions

/-!
# Where violations point

A location tells its place twice: by line and column, which the lists of violations show, and by a
span of bytes, which an excerpt of the source underlines.  It is a **span** of the source when the
bytes start and end between characters and the line and the column are those of the first byte.

Every location of a token is a span, and findings lie at tokens of the stream; so all violations and
labels that the checks report point at one place.  One violation is not made from a finding: the
warning in the place of an allowed violation whose directive lacks a reason.  It keeps the line and
the column of that violation but has the empty span at the start of the file
(`reminder_of_mem_applyDirectives`).
-/

namespace PhpLint

open Token (mark withoutMark)

namespace Location

/-- A location is a span of a source, and starts on its line and in its column.  A byte order mark in
front counts for no column. -/
structure SpanOf (source : Text) (l : Location) : Prop where
  start : ∃ before after, Text.splitBytes? l.offset source = some (before, after) ∧
    l.line = 1 + before.count '\n' ∧ l.column = 1 + (Text.lastLine (withoutMark before)).length
  stop : (Text.splitBytes? (l.offset + l.length) source).isSome = true
  le : l.offset + l.length ≤ Text.utf8Length source

end Location

/-- A place between two characters lies no further than the end of the text. -/
theorem Text.le_of_splitBytes? {n : Nat} {t before after : Text}
    (h : splitBytes? n t = some (before, after)) : n ≤ utf8Length t := by
  obtain ⟨rfl, rfl⟩ := splitBytes?_eq_some_iff.1 h
  simp

/-- At the start of a source stand its first line and column. -/
theorem Location.spanOf_iff_of_start {source : Text} {l : Location} (hoffset : l.offset = 0)
    (hlength : l.length = 0) : l.SpanOf source ↔ l.line = 1 ∧ l.column = 1 := by
  have hsplit : Text.splitBytes? 0 source = some ([], source) := by
    unfold Text.splitBytes?
    rfl
  constructor
  · intro h
    obtain ⟨before, after, hbefore, hline, hcolumn⟩ := h.start
    rw [hoffset, hsplit] at hbefore
    obtain ⟨rfl, -⟩ := Prod.mk.inj (Option.some.inj hbefore)
    exact ⟨hline, hcolumn⟩
  · intro hplace
    obtain ⟨hline, hcolumn⟩ := hplace
    refine ⟨⟨[], source, by rw [hoffset, hsplit], hline, hcolumn⟩, ?_, ?_⟩
    · rw [hoffset, hlength, Nat.add_zero, hsplit]
      rfl
    · rw [hoffset, hlength]
      exact Nat.zero_le _

namespace FileContext

variable {ctx : FileContext} {i : Nat}

/-- The location of a token is a span of the source. -/
theorem spanOf_location (hsource : TokenStream.ofSource ctx.source = .ok ctx.stream)
    (hi : i < ctx.stream.size) : (ctx.location i).SpanOf ctx.source := by
  obtain ⟨ls, hlaid⟩ := TokenStream.exists_laidOut hsource
  obtain ⟨t, ht⟩ := TokenStream.exists_token? hi
  have hcut := hlaid.splitBytes?_offset ht
  have hstop : Text.splitBytes? (t.offset + Text.utf8Length t.content) ctx.source =
      some (mark ctx.source ++ Lexeme.spell (ls.take (i + 1)),
        Lexeme.spell (ls.drop (i + 1))) := by
    refine Text.splitBytes?_eq_some_iff.2 ⟨?_, (hlaid.stop_eq ht).symm⟩
    rw [hlaid.spell_take_add_one (Nat.le_refl i), ← List.append_assoc]
    exact hlaid.source_eq (Nat.le_refl i)
  rw [location, ht]
  refine ⟨⟨_, _, hcut, ?_, ?_⟩, ?_, Text.le_of_splitBytes? hstop⟩
  · rw [List.count_append, Token.count_mark, Nat.zero_add]
    exact hlaid.line_eq ht
  · rw [Token.withoutMark_append (Text.splitBytes?_eq_some_iff.1 hcut).1]
    exact hlaid.column_eq ht
  · exact Option.isSome_iff_exists.2 ⟨_, hstop⟩

end FileContext

namespace Violation

/-- The location and the labels of a violation are spans of a source. -/
structure Spans (source : Text) (v : Violation) : Prop where
  location : v.location.SpanOf source
  labels : ∀ label ∈ v.labels, label.location.SpanOf source

/-- A violation is the warning that a directive lacks a reason: it names a line and a column of the
source, but its span is the empty one at the start. -/
structure IsReminder (source : Text) (v : Violation) : Prop where
  reason : v.reason = some "AllowWithoutReason"
  allowed : Directive.check source v.location.line v.rule.toList = .allowed none
  labels : v.labels = []
  offset : v.location.offset = 0
  length : v.location.length = 0
  place : ∃ l : Location, l.SpanOf source ∧ l.file = v.location.file ∧
    l.line = v.location.line ∧ l.column = v.location.column

end Violation

/-- What a provided check reports at a token it listens for are spans of the source. -/
theorem Sniff.Invariant.spans {sniff : Sniff} (h : sniff.Invariant) {ctx : FileContext} {i : Nat}
    (hsource : TokenStream.ofSource ctx.source = .ok ctx.stream)
    (hi : ctx.stream.has i sniff.listensTo.contains = true) {v : Violation}
    (hv : v ∈ sniff.process ctx i) : v.Spans ctx.source := by
  obtain ⟨f, hf, rfl⟩ := List.mem_map.1 hv
  have hplaces := h.places hi f hf
  refine ⟨ctx.spanOf_location hsource (TokenStream.lt_size_of_has hplaces.index), ?_⟩
  intro label hlabel
  obtain ⟨l, hl, rfl⟩ := List.mem_map.1 hlabel
  exact ctx.spanOf_location hsource (TokenStream.lt_size_of_has (hplaces.labels l hl))

namespace Ruleset

variable {rules : Ruleset} {ctx : FileContext} {sniff : Sniff} {source : Text} {v w : Violation}
  {i : Nat}

/-- Under the directives of a source a violation stays as it is or gives way to a reminder. -/
theorem reminder_of_mem_applyDirectives (hw : w.Spans source)
    (h : v ∈ applyDirectives source sniff w) : v.Spans source ∨ v.IsReminder source := by
  unfold applyDirectives at h
  split at h
  · rw [List.mem_singleton] at h
    exact .inl (h ▸ hw)
  · next reason hallowed =>
    obtain ⟨hmissing, h⟩ := List.mem_ite_nil_right.1 h
    obtain rfl := List.mem_singleton.1 h
    rw [Bool.and_eq_true, Option.isNone_iff_eq_none] at hmissing
    rw [hmissing.2] at hallowed
    exact .inr ⟨rfl, hallowed, rfl, rfl, rfl, w.location, hw.location, rfl, rfl, rfl⟩

/-- What is reported at a token is a reminder, or points at spans. -/
theorem spans_or_reminder_of_mem_checkToken (hsniffs : ∀ sniff ∈ rules.sniffs, sniff.Invariant)
    (hsource : TokenStream.ofSource ctx.source = .ok ctx.stream) (h : v ∈ rules.checkToken ctx i) :
    v.Spans ctx.source ∨ v.IsReminder ctx.source := by
  obtain ⟨sniff, hsniff, h⟩ := List.mem_flatMap.1 h
  obtain ⟨hmem, hi⟩ := List.mem_filter.1 hsniff
  obtain ⟨u, hu, rfl⟩ := List.mem_map.1 h
  obtain ⟨w, hw, hu⟩ := List.mem_flatMap.1 hu
  -- The configured severity changes no place.
  rcases reminder_of_mem_applyDirectives ((hsniffs sniff hmem).spans hsource hi hw) hu with
    hspans | hreminder
  · exact .inl ⟨hspans.location, hspans.labels⟩
  · exact .inr ⟨hreminder.reason, hreminder.allowed, hreminder.labels, hreminder.offset,
      hreminder.length, hreminder.place⟩

/-- Where a violation points in a source.  A reminder points rightly only if it stands in the first
line and column. -/
structure PointsInto (source : Text) (v : Violation) : Prop where
  places : v.Spans source ∨ v.IsReminder source
  reminder : v.IsReminder source →
    (v.location.SpanOf source ↔ v.location.line = 1 ∧ v.location.column = 1)
  /-- What is underlined starts and ends between characters of the source. -/
  notes : ∀ note ∈ v.diagnostic.notes, (Text.splitBytes? note.offset source).isSome = true ∧
    (Text.splitBytes? (note.offset + note.length) source).isSome = true

/-- A violation that is one of the two points into the source as it has to. -/
theorem pointsInto_of_cases (h : v.Spans source ∨ v.IsReminder source) : PointsInto source v := by
  have hnote {l : Location} (hl : l.SpanOf source) (text : String) :
      (Text.splitBytes? (Violation.noteAt l text).offset source).isSome = true ∧
        (Text.splitBytes? ((Violation.noteAt l text).offset +
          (Violation.noteAt l text).length) source).isSome = true := by
    obtain ⟨before, after, hbefore, -⟩ := hl.start
    exact ⟨Option.isSome_iff_exists.2 ⟨_, hbefore⟩, hl.stop⟩
  constructor
  case places => exact h
  case reminder =>
    exact fun hreminder => Location.spanOf_iff_of_start hreminder.offset hreminder.length
  case notes =>
    intro note hmem
    rcases List.mem_cons.1 hmem with rfl | hmem
    · rcases h with hspans | hreminder
      · exact hnote hspans.location v.rule
      · unfold Violation.noteAt
        rw [hreminder.offset, hreminder.length]
        unfold Text.splitBytes?
        exact ⟨rfl, rfl⟩
    · obtain ⟨label, hlabel, rfl⟩ := List.mem_map.1 hmem
      rcases h with hspans | hreminder
      · exact hnote (hspans.labels label hlabel) label.message
      · rw [hreminder.labels] at hlabel
        cases hlabel

/-- **Violations point into the source.**  Every source with tokens can be checked, by any choice of
provided checks under any configuration, and what is reported points at places of the source, but
for the spans of reminders. -/
theorem checkSource_pointsInto {source : Text} {s : TokenStream} {sniffs : List Sniff}
    (hsource : TokenStream.ofSource source = .ok s) (hsniffs : ∀ sniff ∈ sniffs, sniff.IsProvided)
    (config : Config) (base path : FilePath) :
    ∃ violations, (ofConfig sniffs config).checkSource base path source = .ok violations ∧
      ∀ v ∈ violations, PointsInto source v := by
  have hinvariant : ∀ sniff ∈ (ofConfig sniffs config).sniffs, sniff.Invariant := fun sniff hmem =>
    (hsniffs sniff (List.mem_filter.1 hmem).1).invariant
  refine ⟨_, by rw [checkSource, hsource], fun v hv => pointsInto_of_cases ?_⟩
  obtain ⟨i, -, hi⟩ := List.mem_flatMap.1 (List.mem_mergeSort.1 hv)
  exact spans_or_reminder_of_mem_checkToken hinvariant (by exact hsource) hi

/-- A file with a byte order mark and letters of two bytes, in which three checks find something, one
of them with a label on another line. -/
def markedSource : Text :=
  ("\uFEFFé<?php\n/**\n * @return void\n */\nfunction f() \x7b return 'ä'; \x7d\n" ++
    "if ($é == 1) \x7b\x7d").toList

/-- A source with a byte order mark, letters of two bytes and a violation with labels. -/
theorem checkSource_pointsInto_marked :
    ∃ s, TokenStream.ofSource markedSource = .ok s ∧
      ((Ruleset.ofConfig (Config.sniffs {}) {}).check
          (.under ⟨[]⟩ ⟨[]⟩ markedSource s (.ofStreams [s]))).map
        (fun v => (v.location.line, v.location.offset, v.labels.map (·.location.offset))) =
          [(1, 5, []), (3, 18, [50]), (6, 73, [])] ∧
      (∀ sniff ∈ Config.sniffs {}, sniff.IsProvided) ∧
      ∃ violations, (ofConfig (Config.sniffs {}) {}).checkSource ⟨[]⟩ ⟨[]⟩ markedSource =
          .ok violations ∧
        ∀ v ∈ violations, PointsInto markedSource v := by
  have hcomputed : (TokenStream.ofSource markedSource).map (fun s =>
      decide (((Ruleset.ofConfig (Config.sniffs {}) {}).check
          (.under ⟨[]⟩ ⟨[]⟩ markedSource s (.ofStreams [s]))).map
        (fun v => (v.location.line, v.location.offset, v.labels.map (·.location.offset))) =
          [(1, 5, []), (3, 18, [50]), (6, 73, [])])) = .ok true := by
    decide +kernel
  obtain ⟨s, hs, hfound⟩ := TokenStream.exists_of_map_ofSource hcomputed
  have hprovided : ∀ sniff ∈ Config.sniffs {}, sniff.IsProvided :=
    fun _ hsniff => Config.isProvided_of_mem_sniffs hsniff
  exact ⟨s, hs, of_decide_eq_true hfound, hprovided,
    checkSource_pointsInto hs hprovided {} ⟨[]⟩ ⟨[]⟩⟩

/-- A comparison on the third line that is allowed without a reason. -/
def unreasonedSource : Text :=
  "<?php\n// php-standards: allow(yoda-condition)\nif ($a == 1) \x7b\x7d\n".toList

/-- The reminder names the place of the comparison, and its span is that of another place. -/
theorem checkSource_reminder_elsewhere :
    (OperandOrder.sniff .error .require).IsProvided ∧
      ∃ violations v,
        (ofConfig [OperandOrder.sniff .error .require] {}).checkSource ⟨[]⟩ ⟨[]⟩ unreasonedSource =
          .ok violations ∧
        v ∈ violations ∧ v.location.line = 3 ∧ v.location.column = 8 ∧
        ¬v.location.SpanOf unreasonedSource := by
  refine ⟨.operandOrder .error .require, ?_⟩
  have hcomputed : ((ofConfig [OperandOrder.sniff .error .require] {}).checkSource ⟨[]⟩ ⟨[]⟩
      unreasonedSource).map (List.map Violation.location) = .ok [.point ⟨[]⟩ 3 8] := by
    decide +kernel
  cases hchecked : (ofConfig [OperandOrder.sniff .error .require] {}).checkSource ⟨[]⟩ ⟨[]⟩
      unreasonedSource with
  | error e =>
    rw [hchecked] at hcomputed
    cases hcomputed
  | ok violations =>
    rw [hchecked] at hcomputed
    obtain ⟨v, rfl, hv⟩ := List.map_eq_singleton_iff.1 (Except.ok.inj hcomputed)
    refine ⟨[v], v, rfl, List.mem_singleton_self v, by rw [hv]; rfl, by rw [hv]; rfl, ?_⟩
    rw [hv, Location.spanOf_iff_of_start rfl rfl]
    decide

end Ruleset

end PhpLint

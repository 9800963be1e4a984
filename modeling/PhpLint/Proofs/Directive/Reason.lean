import Mathlib.Data.List.Forall2
import PhpLint.Proofs.Directive.Written
import PhpLint.Proofs.Lexing.Lossless
import PhpLint.Ruleset
import PhpLint.Sniff.OperandOrder

/-!
# Reasons for what is allowed

To allow an error takes a reason.  Two lines may cover a place, its own and the one before, and a
reason on either of them should do: a violation that a directive covers vanishes if one of those that
cover it gives a reason, and gives way to a reminder if none does (`Outcome`).

Of the two lines the one before is asked first, and what stands there decides.  So a reason on the
line itself is lost when the line before covers the rule without one (`Overruled`).  In every other
case a violation comes to what it should, and in this one it never does
(`outcome_applyDirectives_iff`).
-/

namespace PhpLint

namespace Directive

/-- A directive that names a rule stands on a line. -/
def Covered (source rule : Text) (n : Nat) : Prop :=
  ∃ front w, Stands source n front w ∧ w.Names rule

/-- A directive that names a rule stands on a line and gives a reason. -/
def Reasoned (source rule : Text) (n : Nat) : Prop :=
  ∃ front w reason, Stands source n front w ∧ w.Names rule ∧ Gives source front w reason

/-- A directive on a line applies to that line and the next. -/
def AppliesTo (m n : Nat) : Prop := m = n ∨ m + 1 = n

/-- A line gives a reason for a rule, and the one before covers the rule without giving one. -/
structure Overruled (source rule : Text) (n : Nat) : Prop where
  before : ∃ m, m + 1 = n ∧ Covered source rule m ∧ ¬Reasoned source rule m
  here : Reasoned source rule n

variable {source rule : Text} {d : Directive} {m n : Nat}

/-- A line that gives a reason for a rule covers the rule. -/
theorem Reasoned.covered (h : Reasoned source rule n) : Covered source rule n := by
  obtain ⟨front, w, reason, hstands, hrule, -⟩ := h
  exact ⟨front, w, hstands, hrule⟩

/-- There is no line zero. -/
theorem not_covered_zero : ¬Covered source rule 0 := by
  intro h
  obtain ⟨front, w, hstands, -⟩ := h
  have := hstands.line
  omega

/-- Nothing is read from a line for a rule that no directive there names. -/
theorem onLine?_eq_none_iff :
    onLine? (Text.lines source) rule n = none ↔ ¬Covered source rule n := by
  rw [← Option.not_isSome_iff_eq_none, isSome_onLine?_iff, Covered]

/-- What is read from a line for a rule covers the rule. -/
theorem covered_of_onLine? (h : onLine? (Text.lines source) rule n = some d) :
    Covered source rule n :=
  isSome_onLine?_iff.1 (Option.isSome_iff_exists.2 ⟨d, h⟩)

/-- The directive that is read from a line has a reason when one is given on that line. -/
theorem isSome_reason_iff (h : onLine? (Text.lines source) rule n = some d) :
    d.reason.isSome = true ↔ Reasoned source rule n := by
  constructor
  · intro hsome
    obtain ⟨reason, hreason⟩ := Option.isSome_iff_exists.1 hsome
    obtain ⟨front, w, hstands, hrule, hgives⟩ := exists_stands_of_onLine? h
    exact ⟨front, w, reason, hstands, hrule, (hgives reason).1 hreason⟩
  · intro ⟨front, w, reason, hstands, hrule, hgives⟩
    obtain ⟨d', hd', hreason⟩ := hstands.exists_onLine?_eq hrule
    obtain rfl := Option.some.inj (h.symm.trans hd')
    exact Option.isSome_iff_exists.2 ⟨reason, (hreason reason).2 hgives⟩

/-- What holds of a line that applies to the line `n`, and of no line zero, holds of the line before
or of `n` itself. -/
theorem exists_appliesTo_iff {p : Nat → Prop} (hzero : ¬p 0) :
    (∃ m, AppliesTo m n ∧ p m) ↔ p (n - 1) ∨ p n := by
  constructor
  · intro ⟨m, hm, h⟩
    rcases hm with rfl | rfl
    · exact .inr h
    · exact .inl h
  · intro h
    rcases h with h | h
    · have hn : n ≠ 0 := by
        rintro rfl
        exact hzero h
      exact ⟨n - 1, .inr (by omega), h⟩
    · exact ⟨n, .inl rfl, h⟩

/-- A place is covered from its own line or the one before. -/
theorem exists_covered_iff :
    (∃ m, AppliesTo m n ∧ Covered source rule m) ↔
      Covered source rule (n - 1) ∨ Covered source rule n :=
  exists_appliesTo_iff not_covered_zero

/-- A reason is given on the line of a place or the one before. -/
theorem exists_reasoned_iff :
    (∃ m, AppliesTo m n ∧ Reasoned source rule m) ↔
      Reasoned source rule (n - 1) ∨ Reasoned source rule n :=
  exists_appliesTo_iff fun h => not_covered_zero h.covered

/-- A place is overruled when its own line gives a reason and the one before covers the rule without
one. -/
theorem overruled_iff :
    Overruled source rule n ↔ Covered source rule (n - 1) ∧ ¬Reasoned source rule (n - 1) ∧
      Reasoned source rule n := by
  constructor
  · intro ⟨⟨m, hm, hcovered, hreason⟩, hhere⟩
    obtain rfl : m = n - 1 := by omega
    exact ⟨hcovered, hreason, hhere⟩
  · intro ⟨hcovered, hreason, hhere⟩
    have hn : n ≠ 0 := by
      rintro rfl
      exact not_covered_zero hhere.covered
    exact ⟨⟨n - 1, by omega, hcovered, hreason⟩, hhere⟩

/-- What a source says about a rule on a line. -/
theorem check_cases (source rule : Text) (n : Nat) :
    (check source n rule = .denied ∧ ¬Covered source rule (n - 1) ∧ ¬Covered source rule n) ∨
      ∃ m, ∃ d : Directive, check source n rule = .allowed d.reason ∧ Covered source rule m ∧
        (d.reason.isSome = true ↔ Reasoned source rule m) ∧
        (m = n - 1 ∨ m = n ∧ ¬Covered source rule (n - 1)) := by
  cases hbefore : onLine? (Text.lines source) rule (n - 1) with
  | some d =>
    refine .inr ⟨n - 1, d, ?_, covered_of_onLine? hbefore, isSome_reason_iff hbefore, .inl rfl⟩
    simp [check, hbefore]
  | none =>
    have hnone := onLine?_eq_none_iff.1 hbefore
    cases hhere : onLine? (Text.lines source) rule n with
    | some d =>
      refine .inr ⟨n, d, ?_, covered_of_onLine? hhere, isSome_reason_iff hhere, .inr ⟨rfl, hnone⟩⟩
      simp [check, hbefore, hhere]
    | none =>
      refine .inl ⟨?_, hnone, onLine?_eq_none_iff.1 hhere⟩
      simp [check, hbefore, hhere]

end Directive

namespace Ruleset

open Directive (AppliesTo Covered Reasoned Overruled)

variable {rules : Ruleset} {ctx : FileContext} {sniff : Sniff} {source : Text} {v : Violation}
  {i : Nat}

/-- What a violation of a check that requires reasons should come to. -/
inductive Outcome (source : Text) (sniff : Sniff) (v : Violation) : List Violation → Prop
  /-- No directive covers it, and it stays. -/
  | stays (hnone : ∀ m, AppliesTo m v.location.line → ¬Covered source sniff.name.toList m) :
      Outcome source sniff v [v]
  /-- One of the directives that cover it gives a reason, and nothing is reported. -/
  | vanishes {m : Nat} (hm : AppliesTo m v.location.line)
      (hreason : Reasoned source sniff.name.toList m) : Outcome source sniff v []
  /-- It is covered, and none of the directives that cover it gives a reason. -/
  | reminds {m : Nat} (hm : AppliesTo m v.location.line)
      (hcovered : Covered source sniff.name.toList m)
      (hnone : ∀ m, AppliesTo m v.location.line → ¬Reasoned source sniff.name.toList m) :
      Outcome source sniff v [missingReason sniff v]

/-- Where the line before overrules it, a reason is asked for. -/
theorem applyDirectives_of_overruled (hrequires : sniff.requiresReason = true)
    (h : Overruled source sniff.name.toList v.location.line) :
    applyDirectives source sniff v = [missingReason sniff v] := by
  obtain ⟨hbefore, hnone, -⟩ := Directive.overruled_iff.1 h
  rcases Directive.check_cases source sniff.name.toList v.location.line with
    ⟨-, hdenied, -⟩ | ⟨m, d, hcheck, -, hreason, hm⟩
  · exact absurd hbefore hdenied
  · obtain rfl : m = v.location.line - 1 := hm.resolve_right fun h => h.2 hbefore
    have hd : d.reason = none := by
      rw [← Option.not_isSome_iff_eq_none, hreason]
      exact hnone
    rw [applyDirectives, hcheck, hd]
    simp [hrequires]

/-- It should not be asked for. -/
theorem not_outcome_of_overruled (h : Overruled source sniff.name.toList v.location.line) :
    ¬Outcome source sniff v [missingReason sniff v] := by
  intro houtcome
  generalize hw : [missingReason sniff v] = ws at houtcome
  cases houtcome with
  | stays hnone =>
    obtain ⟨m, hm, hcovered, -⟩ := h.before
    exact hnone m (.inr hm) hcovered
  | vanishes => cases hw
  | reminds _ _ hnone => exact hnone _ (.inl rfl) h.here

/-- On a line that is not overruled a violation comes to what it should. -/
theorem outcome_of_not_overruled (hrequires : sniff.requiresReason = true)
    (h : ¬Overruled source sniff.name.toList v.location.line) :
    Outcome source sniff v (applyDirectives source sniff v) := by
  rw [Directive.overruled_iff] at h
  rcases Directive.check_cases source sniff.name.toList v.location.line with
    ⟨hcheck, hbefore, hhere⟩ | ⟨m, d, hcheck, hcovered, hreason, hm⟩
  · -- Nothing covers the violation.
    rw [applyDirectives, hcheck]
    refine .stays fun m hm hcovered => ?_
    exact not_or.2 ⟨hbefore, hhere⟩ (Directive.exists_covered_iff.1 ⟨m, hm, hcovered⟩)
  · cases hd : d.reason with
    | some reason =>
      -- The directive that decides gives a reason.
      have happly : applyDirectives source sniff v = [] := by
        rw [applyDirectives, hcheck, hd]
        simp
      rw [hd] at hreason
      obtain ⟨m', hm', hreason'⟩ := Directive.exists_reasoned_iff.2
        (hm.imp (· ▸ hreason.1 rfl) fun hm => hm.1 ▸ hreason.1 rfl)
      rw [happly]
      exact .vanishes hm' hreason'
    | none =>
      -- It gives none, and neither does the other line.
      have happly : applyDirectives source sniff v = [missingReason sniff v] := by
        rw [applyDirectives, hcheck, hd]
        simp [hrequires]
      have hnone : ¬Reasoned source sniff.name.toList m := by
        rw [← hreason, hd]
        exact Bool.false_ne_true
      have hneither : ¬(Reasoned source sniff.name.toList (v.location.line - 1) ∨
          Reasoned source sniff.name.toList v.location.line) := by
        rcases hm with rfl | ⟨rfl, hbefore⟩
        · exact not_or.2 ⟨hnone, fun hhere => h ⟨hcovered, hnone, hhere⟩⟩
        · exact not_or.2 ⟨fun hreason => hbefore hreason.covered, hnone⟩
      obtain ⟨m', hm', hcovered'⟩ := Directive.exists_covered_iff.2
        (hm.imp (· ▸ hcovered) fun hm => hm.1 ▸ hcovered)
      rw [happly]
      exact .reminds hm' hcovered' fun m hm h =>
        hneither (Directive.exists_reasoned_iff.1 ⟨m, hm, h⟩)

/-- A violation comes to what it should unless the line before overrules its own. -/
theorem outcome_applyDirectives_iff (hrequires : sniff.requiresReason = true) :
    Outcome source sniff v (applyDirectives source sniff v) ↔
      ¬Overruled source sniff.name.toList v.location.line := by
  constructor
  · intro houtcome hover
    rw [applyDirectives_of_overruled hrequires hover] at houtcome
    exact not_outcome_of_overruled hover houtcome
  · exact outcome_of_not_overruled hrequires

/-- **A reason is lost only on a line that is overruled.**  What a check that requires reasons reports
at a token is put together from one outcome for each violation it finds there, and that outcome is
the one that the violation should have exactly when its line is not overruled. -/
theorem checkWith_outcomes (hrequires : sniff.requiresReason = true) :
    ∃ outcomes : List (List Violation),
      rules.checkWith ctx i sniff = outcomes.flatten.map (rules.applySeverity sniff) ∧
      List.Forall₂ (fun v outcome => Outcome ctx.source sniff v outcome ↔
          ¬Overruled ctx.source sniff.name.toList v.location.line)
        (sniff.process ctx i) outcomes := by
  refine ⟨(sniff.process ctx i).map (applyDirectives ctx.source sniff), ?_, ?_⟩
  · rw [checkWith, List.flatMap_def]
  · rw [List.forall₂_map_right_iff]
    exact List.forall₂_same.2 fun v _ => outcome_applyDirectives_iff hrequires

/-- The check of comparisons, which takes a reason to be allowed. -/
def comparisons : Sniff := OperandOrder.sniff .error .require

/-- A comparison on the second line.  The directive there gives no reason, the one before does. -/
def reasonedSource : Text :=
  ("<?php // php-standards: allow(all) reason=\"x\"\n" ++
    "if ($a == 1); // php-standards: allow(all)").toList

/-- The line before gives the reason, the line of the comparison covers it without one: nothing is
overruled, and all is as it should be. -/
theorem checkWith_outcomes_reasoned :
    comparisons.requiresReason = true ∧
      ∃ s, TokenStream.ofSource reasonedSource = .ok s ∧
        (comparisons.process (.under ⟨[]⟩ ⟨[]⟩ reasonedSource s (.ofStreams [s])) 9).map
          (·.location.line) = [2] ∧
        ¬Overruled reasonedSource comparisons.name.toList 2 ∧
        ∃ outcomes : List (List Violation),
          (ofConfig [comparisons] {}).checkWith
              (.under ⟨[]⟩ ⟨[]⟩ reasonedSource s (.ofStreams [s])) 9 comparisons =
            outcomes.flatten.map ((ofConfig [comparisons] {}).applySeverity comparisons) ∧
          List.Forall₂ (fun v outcome => Outcome reasonedSource comparisons v outcome ↔
              ¬Overruled reasonedSource comparisons.name.toList v.location.line)
            (comparisons.process (.under ⟨[]⟩ ⟨[]⟩ reasonedSource s (.ofStreams [s])) 9)
            outcomes := by
  have hcomputed : (TokenStream.ofSource reasonedSource).map (fun s =>
      (comparisons.process (.under ⟨[]⟩ ⟨[]⟩ reasonedSource s (.ofStreams [s])) 9).map
        (·.location.line)) = .ok [2] := by
    decide +kernel
  have hbefore : Directive.onLine? (Text.lines reasonedSource) comparisons.name.toList 1 =
      some ⟨["all".toList], some "x".toList⟩ := by
    decide +kernel
  have hover : ¬Overruled reasonedSource comparisons.name.toList 2 := by
    rw [Directive.overruled_iff]
    exact fun h => h.2.1 ((Directive.isSome_reason_iff hbefore).1 rfl)
  obtain ⟨s, hs, hfound⟩ := TokenStream.exists_of_map_ofSource hcomputed
  exact ⟨by decide, s, hs, hfound, hover, checkWith_outcomes (by decide)⟩

/-- A comparison on the second line.  The directive there gives a reason, the one before does not. -/
def overruledSource : Text :=
  ("<?php // php-standards: allow(all)\n" ++
    "if ($a == 1); // php-standards: allow(all) reason=\"x\"").toList

/-- The comparison is covered with a reason, and still one is asked for. -/
theorem checkWith_overruled :
    comparisons.requiresReason = true ∧
      ∃ s v, TokenStream.ofSource overruledSource = .ok s ∧
        comparisons.process (.under ⟨[]⟩ ⟨[]⟩ overruledSource s (.ofStreams [s])) 9 = [v] ∧
        (∃ m, AppliesTo m v.location.line ∧
          Reasoned overruledSource comparisons.name.toList m) ∧
        (ofConfig [comparisons] {}).checkWith
            (.under ⟨[]⟩ ⟨[]⟩ overruledSource s (.ofStreams [s])) 9 comparisons =
          [missingReason comparisons v] := by
  have hcomputed : (TokenStream.ofSource overruledSource).map (fun s =>
      (comparisons.process (.under ⟨[]⟩ ⟨[]⟩ overruledSource s (.ofStreams [s])) 9).map
        (·.location.line)) = .ok [2] := by
    decide +kernel
  have hbefore : Directive.onLine? (Text.lines overruledSource) comparisons.name.toList 1 =
      some ⟨["all".toList], none⟩ := by
    decide +kernel
  have hhere : Directive.onLine? (Text.lines overruledSource) comparisons.name.toList 2 =
      some ⟨["all".toList], some "x".toList⟩ := by
    decide +kernel
  have hreason := (Directive.isSome_reason_iff hhere).1 rfl
  have hnone := (Directive.isSome_reason_iff hbefore).not.1 Bool.false_ne_true
  obtain ⟨s, hs, hfound⟩ := TokenStream.exists_of_map_ofSource hcomputed
  obtain ⟨v, hv, hline⟩ := List.map_eq_singleton_iff.1 hfound
  have hover : Overruled overruledSource comparisons.name.toList v.location.line := by
    rw [hline]
    exact ⟨⟨1, rfl, Directive.covered_of_onLine? hbefore, hnone⟩, hreason⟩
  have happly := applyDirectives_of_overruled (by decide) hover
  refine ⟨by decide, s, v, hs, hv, ⟨2, .inl hline.symm, hreason⟩, ?_⟩
  rw [checkWith, hv, List.flatMap_singleton]
  exact congrArg (List.map _) happly

end Ruleset

end PhpLint

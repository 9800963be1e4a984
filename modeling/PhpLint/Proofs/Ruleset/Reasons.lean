import PhpLint.Proofs.FunctionComment.Inheritdoc
import PhpLint.Proofs.LineEnds.Invariance

/-!
# The reasons of the checks

Every check has a list of reasons, and all that it finds has one of them.  The reason of a reminder that
an allowed violation lacks a reason is on none of the lists (`Sniff.IsProvided.leavesReminders`), so
among the violations of the provided checks reminders are told by their reason.
-/

namespace PhpLint

/-- The violation is a reminder, by the reason that it gives. -/
def Violation.AsksForReason (v : Violation) : Prop := v.reason = some "AllowWithoutReason"

instance (v : Violation) : Decidable v.AsksForReason := inferInstanceAs (Decidable (_ = _))

namespace Sniff

/-- All that a check finds has a reason of a list. -/
def Reasons (sniff : Sniff) (reasons : List String) : Prop :=
  ∀ ctx i, ∀ f ∈ sniff.findings ctx i, f.reason ∈ reasons

/-- The check leaves the reason of a reminder to the rule set. -/
def LeavesReminders (sniff : Sniff) : Prop :=
  ∀ ctx i, ∀ f ∈ sniff.findings ctx i, f.reason ≠ "AllowWithoutReason"

/-- A check with other reasons leaves reminders to the directives. -/
theorem Reasons.leavesReminders {sniff : Sniff} {reasons : List String} (h : sniff.Reasons reasons)
    (hreasons : "AllowWithoutReason" ∉ reasons) : sniff.LeavesReminders := by
  intro ctx i f hf heq
  exact hreasons (heq ▸ h ctx i f hf)

end Sniff

namespace StrictDeclaration

/-- The reasons of a failure. -/
def reasons : List String :=
  ["MissingDeclaration", "WrongPosition", "LeadingSpace", "InvalidDeclaration"]

/-- The check for strict types has these reasons. -/
theorem reasons_sniff (severity : Severity) : (sniff severity).Reasons reasons := by
  intro ctx i f hf
  have hf : f ∈ findings ctx i := hf
  unfold findings at hf
  obtain ⟨-, hf⟩ := List.mem_ite_nil_left.1 hf
  split at hf
  · next failure _ =>
    obtain rfl := List.mem_singleton.1 hf
    cases failure <;> simp [reasons, Failure.reason]
  · cases hf

end StrictDeclaration

namespace ArrayTrailingComma

/-- The check of commas has one reason. -/
theorem reasons_sniff (severity : Severity) : (sniff severity).Reasons ["Found"] := by
  intro ctx i f hf
  have hf : f ∈ findings ctx i := hf
  rw [findings_eq] at hf
  split at hf
  · obtain rfl := List.mem_singleton.1 hf
    exact List.mem_singleton_self _
  · cases hf

end ArrayTrailingComma

namespace OperandOrder

/-- The check of operands has a reason for each style. -/
theorem reasons_sniff (severity : Severity) (style : Style) :
    (sniff severity style).Reasons ["NotYoda", "Found"] := by
  intro ctx i f hf
  have hf : f ∈ findings style ctx i := hf
  cases style with
  | require =>
    obtain ⟨-, hf⟩ := List.mem_ite_nil_right.1 hf
    obtain rfl := List.mem_singleton.1 hf
    exact List.mem_cons_self
  | disallow =>
    obtain ⟨-, hf⟩ := List.mem_ite_nil_right.1 hf
    obtain rfl := List.mem_singleton.1 hf
    exact List.mem_cons_of_mem _ List.mem_cons_self

end OperandOrder

namespace DocCommentSpacing

variable {s : TokenStream} {spacing : Spacing} {f : Finding}

/-- The reasons for a wrong number of blank lines, one for each place. -/
def reasons : List String :=
  ["IncorrectLinesCountBeforeFirstContent",
   "IncorrectLinesCountBetweenDescriptionAndAnnotations",
   "IncorrectLinesCountBetweenSameAnnotations",
   "IncorrectLinesCountBetweenDifferentAnnotationsTypes",
   "IncorrectLinesCountAfterLastContent"]

theorem reason_of_mem_expect {index expected found : Nat} {reason place : String}
    (h : f ∈ expect index reason place expected found) :
    f.reason = "IncorrectLinesCount" ++ reason := by
  obtain ⟨-, h⟩ := List.mem_ite_nil_left.1 h
  rw [List.mem_singleton.1 h]

/-- What is found between tags has one of the reasons. -/
theorem reason_mem_of_mem_betweenAll {opener : Nat} {tags : List Nat}
    (h : f ∈ betweenAll s spacing opener tags) : f.reason ∈ reasons := by
  induction tags with
  | nil => cases h
  | cons tag tags ih =>
    cases tags with
    | nil => cases h
    | cons next tags =>
      rw [betweenAll, List.mem_append] at h
      rcases h with h | h
      · unfold betweenTags at h
        dsimp only at h
        split at h
        · rw [reason_of_mem_expect h]
          decide
        · rw [reason_of_mem_expect h]
          decide
      · exact ih h

/-- The check of blank lines in doc comments has these reasons. -/
theorem reasons_sniff (severity : Severity) (spacing : Spacing) :
    (sniff severity spacing).Reasons reasons := by
  intro ctx opener f hf
  have hf : f ∈ findings spacing ctx opener := hf
  unfold findings at hf
  dsimp only at hf
  split at hf
  · cases hf
  obtain ⟨-, hf⟩ := List.mem_ite_nil_left.1 hf
  split at hf
  · cases hf
  rcases List.mem_append.1 hf with hf | hf
  · rcases List.mem_append.1 hf with hf | hf
    · rcases List.mem_append.1 hf with hf | hf
      · rw [reason_of_mem_expect hf]
        decide
      · unfold afterDescription at hf
        split at hf
        · cases hf
        · obtain ⟨-, hf⟩ := List.mem_ite_nil_right.1 hf
          rw [reason_of_mem_expect hf]
          decide
    · exact reason_mem_of_mem_betweenAll hf
  · unfold afterLast at hf
    split at hf
    · rw [reason_of_mem_expect hf]
      decide
    · cases hf

end DocCommentSpacing

namespace FunctionComment

variable {s : TokenStream} {ctx : FileContext} {i : Nat} {f : Finding}

/-- What may be wrong with a comment of a function. -/
def reasons : List String :=
  ["Missing", "WrongStyle", "SpacingAfter", "InvalidInheritdoc", "EmptySees", "DuplicateReturn",
   "MissingReturn", "MissingReturnType", "InvalidReturnVoid", "InvalidNoReturn",
   "InvalidReturnNotVoid"]

/-- The reasons of findings about statements are among those of the check. -/
theorem bodyReasons_subset : bodyReasons ⊆ reasons := by
  decide

/-- What is found about the return type has one of the reasons. -/
theorem reason_mem_of_mem_returnFindings {closer : Nat} {tags : List Nat}
    (h : f ∈ returnFindings s i closer tags) : f.reason ∈ reasons := by
  unfold returnFindings at h
  split at h
  · rw [List.mem_singleton.1 h]
    simp [reasons]
  · obtain ⟨-, h⟩ := List.mem_ite_nil_left.1 h
    split at h
    · rw [List.mem_singleton.1 h]
      simp [reasons]
    · split at h
      · rw [List.mem_singleton.1 h]
        simp [reasons]
      · split at h
        · cases h
        · exact bodyReasons_subset (reason_mem_bodyReasons h)

/-- What is found about a doc comment has one of the reasons. -/
theorem reason_mem_of_mem_docFindings {opener closer : Nat}
    (h : f ∈ docFindings ctx i opener closer) : f.reason ∈ reasons := by
  unfold docFindings at h
  rcases List.mem_append.1 h with h | h
  · obtain ⟨tag, -, rfl⟩ := List.mem_map.1 h
    simp [reasons]
  · split at h
    · split at h
      · rcases List.mem_cons.1 h with rfl | h
        · simp [reasons]
        · exact reason_mem_of_mem_returnFindings h
      · cases h
    · exact reason_mem_of_mem_returnFindings h

/-- The check of function comments has these reasons. -/
theorem reasons_sniff (severity : Severity) (testClasses : List Text) :
    (sniff severity testClasses).Reasons reasons := by
  intro ctx i f hf
  have hf : f ∈ findings testClasses ctx i := hf
  unfold findings at hf
  obtain ⟨-, hf⟩ := List.mem_ite_nil_left.1 hf
  split at hf
  · obtain ⟨-, hf⟩ := List.mem_ite_nil_left.1 hf
    rw [List.mem_singleton.1 hf]
    simp [reasons]
  · split at hf
    · rw [List.mem_singleton.1 hf]
      simp [reasons]
    · rcases List.mem_append.1 hf with hf | hf
      · obtain ⟨-, hf⟩ := List.mem_ite_nil_left.1 hf
        rw [List.mem_singleton.1 hf]
        simp [reasons]
      · split at hf
        · exact reason_mem_of_mem_docFindings hf
        · cases hf

end FunctionComment

/-- No provided check gives the reason of a reminder. -/
theorem Sniff.IsProvided.leavesReminders {sniff : Sniff} (h : sniff.IsProvided) :
    sniff.LeavesReminders := by
  cases h with
  | strictDeclaration severity =>
    exact (StrictDeclaration.reasons_sniff severity).leavesReminders (by decide)
  | functionComment severity testClasses =>
    exact (FunctionComment.reasons_sniff severity testClasses).leavesReminders (by decide)
  | docCommentSpacing severity spacing =>
    exact (DocCommentSpacing.reasons_sniff severity spacing).leavesReminders (by decide)
  | arrayTrailingComma severity =>
    exact (ArrayTrailingComma.reasons_sniff severity).leavesReminders (by decide)
  | operandOrder severity style =>
    exact (OperandOrder.reasons_sniff severity style).leavesReminders (by decide)

end PhpLint

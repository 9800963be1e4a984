import PhpLint.Proofs.Lexing.Layout
import PhpLint.Proofs.Symbols.Enclosing
import PhpLint.Proofs.Symbols.Inheritance
import PhpLint.Sniff.FunctionComment

/-!
# Comments that inherit nothing

A comment that inherits another one is reported when the method overrides none.  This file says what
such a report stands on: the type around the method is declared, its ancestors are all known, and
none of them declares a method of the name, the traits that they use included
(`unfounded_of_findings`).

The type that is judged is the innermost one around the method as long as that one has a name.  The
look-up does not see anonymous classes, and so a method of an anonymous class inside of a named one is
judged by the ancestors of the named one.
-/

namespace PhpLint.FunctionComment

open TokenStream SymbolTable FileContext

variable {s : TokenStream} {ctx : FileContext} {i : Nat} {f : Finding}

/-- The only finding of a list has the reason of that finding. -/
theorem reason_ne_of_mem_singleton {g : Finding} {reason : String} (hg : g.reason ≠ reason)
    (h : f ∈ [g]) : f.reason ≠ reason := by
  rw [List.mem_singleton.1 h]
  exact hg

/-- The reasons of findings about a body that does not fit the return type. -/
def bodyReasons : List String := ["InvalidReturnVoid", "InvalidNoReturn", "InvalidReturnNotVoid"]

/-- Findings about a body have reasons of their own. -/
theorem reason_mem_bodyReasons {type : Text} {tag : Nat} {statements : List Nat}
    (h : f ∈ bodyFindings type s tag statements) : f.reason ∈ bodyReasons := by
  simp only [bodyFindings] at h
  split at h
  · split at h
    · simp [List.mem_singleton.1 h, bodyReasons]
    · cases h
  · split at h
    · cases h
    · split at h
      · simp [List.mem_singleton.1 h, bodyReasons]
      · split at h
        · cases h
        · simp [List.mem_singleton.1 h, bodyReasons]

/-- No finding about a body is one about an inherited comment. -/
theorem reason_ne_of_mem_bodyFindings {type : Text} {tag : Nat} {statements : List Nat}
    (h : f ∈ bodyFindings type s tag statements) : f.reason ≠ "InvalidInheritdoc" :=
  ne_of_mem_of_not_mem (reason_mem_bodyReasons h) (by decide)

/-- No finding about a return tag is one about an inherited comment. -/
theorem reason_ne_of_mem_returnFindings {closer : Nat} {tags : List Nat}
    (h : f ∈ returnFindings s i closer tags) : f.reason ≠ "InvalidInheritdoc" := by
  simp only [returnFindings] at h
  split at h
  · exact reason_ne_of_mem_singleton (by simp) h
  · split at h
    · cases h
    · split at h
      · exact reason_ne_of_mem_singleton (by simp) h
      · split at h
        · exact reason_ne_of_mem_singleton (by simp) h
        · split at h
          · cases h
          · exact reason_ne_of_mem_bodyFindings h

/-- No finding about a reference is one about an inherited comment. -/
theorem reason_ne_of_mem_seeFindings {closer : Nat} {tags : List Nat}
    (h : f ∈ seeFindings s closer tags) : f.reason ≠ "InvalidInheritdoc" := by
  unfold seeFindings at h
  obtain ⟨tag, -, rfl⟩ := List.mem_map.1 h
  simp

/-- A doc comment is found to inherit nothing where its method is known to override nothing. -/
theorem overrides_of_mem_docFindings {opener closer : Nat} (h : f ∈ docFindings ctx i opener closer)
    (hreason : f.reason = "InvalidInheritdoc") : overrides ctx i = some false := by
  simp only [docFindings, List.mem_append] at h
  rcases h with hsee | hrest
  · exact absurd hreason (reason_ne_of_mem_seeFindings hsee)
  split at hrest
  · split at hrest
    · next hoverrides => exact hoverrides
    · cases hrest
  · exact absurd hreason (reason_ne_of_mem_returnFindings hrest)

/-- The finding about an inherited comment is made where nothing is overridden. -/
theorem overrides_of_mem_findings {testClasses : List Text} (h : f ∈ findings testClasses ctx i)
    (hreason : f.reason = "InvalidInheritdoc") : overrides ctx i = some false := by
  simp only [findings] at h
  split at h
  · cases h
  split at h
  · split at h
    · cases h
    · exact absurd hreason (reason_ne_of_mem_singleton (by simp) h)
  split at h
  · exact absurd hreason (reason_ne_of_mem_singleton (by simp) h)
  rcases List.mem_append.1 h with hspacing | hdoc
  · split at hspacing
    · cases hspacing
    · exact absurd hreason (reason_ne_of_mem_singleton (by simp) hspacing)
  · split at hdoc
    · exact overrides_of_mem_docFindings hdoc hreason
    · cases hdoc

/-! ## The type that is judged -/

/-- The method at an index overrides nothing of what the type `own`, whose keyword is at `k`,
inherits. -/
structure Unfounded (ctx : FileContext) (i k : Nat) (own : TypeSymbol) (method : Text) : Prop where
  named : ctx.stream.declaredName? i = some method
  /-- The type is the innermost one around the method. -/
  innermost : ∃ o c, Innermost ctx.stream.NamedBody i k o c ∧
    (¬InAnonymous ctx.stream i → Innermost (TypeBody ctx.stream) i k o c)
  declared : Declaration.read? ctx.stream (NameScope.ofStream ctx.stream) k = some own
  mem : own ∈ ctx.symbols.symbols
  /-- Its declaration is in force, unless the name is declared again. -/
  inForce : (∀ other ∈ ctx.symbols.symbols,
    Text.sameLetters other.name (stripLeading own.name) = true → other = own) →
      ctx.symbols.get? own.name = some own
  known : ∀ a, ctx.symbols.IsAncestor own.name a → (ctx.symbols.get? a).isSome
  undeclared : ∀ a n used, ctx.symbols.IsAncestor own.name a → ctx.symbols.Uses n a used →
    ¬ctx.symbols.Declares method used

/-- **A comment that is reported to inherit nothing inherits nothing.** -/
theorem unfounded_of_findings {testClasses : List Text} {streams : List TokenStream}
    (hstream : ctx.stream ∈ streams) (hsymbols : ctx.symbols = SymbolTable.ofStreams streams)
    (h : f ∈ findings testClasses ctx i) (hreason : f.reason = "InvalidInheritdoc") :
    ∃ k own method, Unfounded ctx i k own method := by
  have hoverrides := overrides_of_mem_findings h hreason
  simp only [overrides, Option.bind_eq_bind, Option.bind_eq_some_iff] at hoverrides
  obtain ⟨method, hmethod, symbol, htype, hinherits⟩ := hoverrides
  rw [hsymbols] at htype
  obtain ⟨k, o, c, own, hinner, hread, hmem, hget⟩ := exists_of_typeAt? hstream htype
  rw [← hsymbols] at hmem hget
  have hrules : ctx.symbols.RulesOut own.name method := by
    rw [← inheritsMethod_eq_some_false_iff, inheritsMethod_congr (hget.trans (get?_name hget).symm)]
    exact hinherits
  refine ⟨k, own, method, ?_⟩
  constructor
  case named => exact hmethod
  case innermost => exact ⟨o, c, hinner, innermost_typeBody hinner⟩
  case declared => exact hread
  case mem => exact hmem
  case inForce =>
    intro honly
    rw [hget, honly symbol (mem_symbols_of_get? hget) (sameLetters_of_get? hget)]
  case known => exact hrules.ancestors
  case undeclared => exact fun a n used ha huses => hrules.not_declares ha huses

/-- The parent of the class is known and declares nothing. -/
theorem unfounded_of_findings_parent :
    ∃ ctx : FileContext,
      ctx.source = String.toList
        "<?php class B {} class A extends B { /** @inheritdoc */ function f() {} }" ∧
      ofSource ctx.source = .ok ctx.stream ∧ ctx.symbols = SymbolTable.ofStreams [ctx.stream] ∧
      (∃ f ∈ findings [] ctx 24, f.reason = "InvalidInheritdoc") ∧ ¬InAnonymous ctx.stream 24 ∧
      ∃ k own method, Unfounded ctx 24 k own method := by
  have hcontext : ∃ ctx : FileContext,
      ctx.source = String.toList
        "<?php class B {} class A extends B { /** @inheritdoc */ function f() {} }" ∧
      ofSource ctx.source = .ok ctx.stream ∧ ctx.symbols = SymbolTable.ofStreams [ctx.stream] ∧
      (∃ f ∈ findings [] ctx 24, f.reason = "InvalidInheritdoc") ∧ ¬InAnonymous ctx.stream 24 :=
    exists_context (by decide +kernel)
  obtain ⟨ctx, hsource, hstream, hsymbols, ⟨f, hf, hreason⟩, hnamed⟩ := hcontext
  have hunfounded := unfounded_of_findings (List.mem_singleton.2 rfl) hsymbols hf hreason
  exact ⟨ctx, hsource, hstream, hsymbols, ⟨f, hf, hreason⟩, hnamed, hunfounded⟩

/-- A method of an anonymous class that overrides one of its parent is reported all the same: the
named class around the anonymous one, which has no ancestors, is judged in its place. -/
theorem findings_anonymous_class :
    ∃ ctx : FileContext,
      ctx.source = String.toList ("<?php class B { function f() {} } " ++
        "class A { function g() { new class extends B { /** @inheritdoc */ function f() {} }; } }") ∧
      ofSource ctx.source = .ok ctx.stream ∧ ctx.symbols = SymbolTable.ofStreams [ctx.stream] ∧
      (∃ f ∈ findings [] ctx 48, f.reason = "InvalidInheritdoc") ∧ InAnonymous ctx.stream 48 :=
  exists_context (by decide +kernel)

end PhpLint.FunctionComment

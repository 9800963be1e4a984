import PhpLint.Preset
import PhpLint.Proofs.LineEnds.DocComment
import PhpLint.Proofs.LineEnds.FunctionComment
import PhpLint.Ruleset

/-!
# Line ends do not matter

A source and the same source with a carriage return before each line feed are both source text or have
the same error, and under every rule set of provided checks the same violations are reported for both.
Only the extents in bytes differ: `Violation.withoutExtent` is what they have in common.

A step of a run is one token.  At an image the checks report what they report at the index, and at a
line end that a closing tag leaves no check is asked; allow directives are read off the same lines.
-/

namespace PhpLint

open Text (withReturns)

/-! ## What violations have in common -/

namespace Location

/-- The place where a span starts, in its line and column. -/
def start (l : Location) : Location := .point l.file l.line l.column

end Location

namespace Violation

/-- The violation without the extents of its spans in bytes. -/
def withoutExtent (v : Violation) : Violation :=
  { v with location := v.location.start, labels := v.labels.map fun l => ⟨l.location.start, l.message⟩ }

end Violation

/-- The contexts in which the two forms of a file are checked by themselves. -/
theorem FileContext.mirrors_under {s s' : TokenStream} {φ : Nat → Nat} (h : TokenStream.Mirrors s s' φ)
    (base path : FilePath) (source : Text) :
    FileContext.Mirrors (.under base path source s (.ofStreams [s]))
      (.under base path (withReturns source) s' (.ofStreams [s'])) φ := by
  simp only [FileContext.under, SymbolTable.ofStreams_image h]
  exact ⟨h, rfl, rfl⟩

section Contexts

variable {ctx ctx' : FileContext} {φ : Nat → Nat}

/-- The start of a span is the same in both forms. -/
theorem FileContext.Mirrors.start_location (hctx : ctx.Mirrors ctx' φ) {i : Nat}
    (hi : ctx.stream.has i Kind.keepsPlace = true) :
    (ctx'.location (φ i)).start = (ctx.location i).start := by
  obtain ⟨k, hk, hkeeps⟩ := (Option.any_eq_true _ _).1 hi
  obtain ⟨t, ht, rfl⟩ := Option.map_eq_some_iff.1 hk
  obtain ⟨t', ht', halike⟩ := hctx.stream.token i t ht
  rw [Kind.keepsPlace, Bool.and_eq_true, bne_iff_ne, bne_iff_ne] at hkeeps
  rw [location, location, ht, ht']
  dsimp only [Location.start, Location.ofToken]
  rw [halike.line hkeeps.1, halike.column hkeeps.1 hkeeps.2, hctx.path]

/-- What a check makes of a finding is the same, its extent in bytes apart. -/
theorem Sniff.withoutExtent_violation (hctx : ctx.Mirrors ctx' φ) (sniff : Sniff) {f : Finding}
    (hf : f.KeepsPlaces ctx.stream) :
    (sniff.violation ctx' (f.move φ)).withoutExtent = (sniff.violation ctx f).withoutExtent := by
  unfold Sniff.violation Violation.withoutExtent Finding.move
  dsimp only
  rw [hctx.start_location hf.index, List.map_map, List.map_map, List.map_map]
  refine congrArg _ (List.map_congr_left fun l hl => ?_)
  exact congrArg (Label.mk · l.2) (hctx.start_location (hf.labels l hl))

/-- At an image a check reports what it reports at the index. -/
theorem Sniff.Invariant.process {sniff : Sniff} (hsniff : sniff.Invariant) (hctx : ctx.Mirrors ctx' φ)
    {i : Nat} (hi : ctx.stream.has i sniff.listensTo.contains = true) :
    (sniff.process ctx' (φ i)).map Violation.withoutExtent =
      (sniff.process ctx i).map Violation.withoutExtent := by
  rw [Sniff.process, Sniff.process, hsniff.findings hctx hi, List.map_map, List.map_map, List.map_map]
  exact List.map_congr_left fun f hf => sniff.withoutExtent_violation hctx (hsniff.places hi f hf)

end Contexts

/-! ## Directives and severities -/

/-- The directives over a line say the same of a rule. -/
theorem Directive.check_withReturns {source : Text} (hreturn : '\r' ∉ source) (line : Nat)
    (rule : Text) : check (withReturns source) line rule = check source line rule := by
  rw [check, check, Text.lines_withReturns hreturn]

namespace Ruleset

/-- Directives act on the place of a violation alone. -/
theorem withoutExtent_applyDirectives (source : Text) (sniff : Sniff) (v : Violation) :
    (applyDirectives source sniff v).map Violation.withoutExtent =
      (applyDirectives source sniff v.withoutExtent).map Violation.withoutExtent := by
  have hline : v.withoutExtent.location.line = v.location.line := rfl
  unfold applyDirectives
  rw [hline]
  cases Directive.check source v.location.line sniff.name.toList with
  | denied =>
    refine congrArg (· :: []) ?_
    simp only [Violation.withoutExtent, List.map_map]
    rfl
  | allowed reason =>
    dsimp only
    split <;> rfl

/-- Directives do the same to a violation. -/
theorem applyDirectives_withReturns {source : Text} (hreturn : '\r' ∉ source) (sniff : Sniff)
    (v : Violation) :
    applyDirectives (withReturns source) sniff v = applyDirectives source sniff v := by
  rw [applyDirectives, applyDirectives, Directive.check_withReturns hreturn]

/-- What a rule set makes of violations depends on no extent. -/
theorem withoutExtent_apply (rules : Ruleset) (source : Text) (sniff : Sniff) {vs vs' : List Violation}
    (h : vs'.map Violation.withoutExtent = vs.map Violation.withoutExtent) :
    ((vs'.flatMap (applyDirectives source sniff)).map (rules.applySeverity sniff)).map
        Violation.withoutExtent =
      ((vs.flatMap (applyDirectives source sniff)).map (rules.applySeverity sniff)).map
        Violation.withoutExtent := by
  -- Extents may be erased first: what is left of a violation, and how grave it is, is decided without.
  have hform (us : List Violation) :
      ((us.flatMap (applyDirectives source sniff)).map (rules.applySeverity sniff)).map
          Violation.withoutExtent =
        (((us.map Violation.withoutExtent).flatMap fun v =>
          (applyDirectives source sniff v).map Violation.withoutExtent)).map
            (rules.applySeverity sniff) := by
    rw [List.map_map, List.flatMap_map, List.map_flatMap, List.map_flatMap]
    refine List.flatMap_congr fun v _ => ?_
    rw [← withoutExtent_applyDirectives, List.map_map]
    rfl
  rw [hform, hform, h]

/-! ## One token after another -/

section Runs

variable {ctx ctx' : FileContext} {φ : Nat → Nat} {rules : Ruleset}

/-- At an image the same is reported. -/
theorem checkToken_image (hrules : ∀ sniff ∈ rules.sniffs, sniff.Invariant)
    (hctx : ctx.Mirrors ctx' φ) (hreturn : '\r' ∉ ctx.source)
    (hsource : ctx'.source = withReturns ctx.source) (i : Nat) :
    (rules.checkToken ctx' (φ i)).map Violation.withoutExtent =
      (rules.checkToken ctx i).map Violation.withoutExtent := by
  unfold checkToken
  simp only [hctx.stream.has_image]
  rw [List.map_flatMap, List.map_flatMap]
  refine List.flatMap_congr fun sniff hsniff => ?_
  obtain ⟨hmem, hlistens⟩ := List.mem_filter.1 hsniff
  have hdirectives : applyDirectives ctx'.source sniff = applyDirectives ctx.source sniff := by
    funext v
    rw [hsource, applyDirectives_withReturns hreturn]
  rw [checkWith, checkWith, hdirectives]
  exact rules.withoutExtent_apply ctx.source sniff ((hrules sniff hmem).process hctx hlistens)

/-- No check is asked at a line end that a closing tag leaves. -/
theorem checkToken_left (hrules : ∀ sniff ∈ rules.sniffs, sniff.Invariant)
    (hctx : ctx.Mirrors ctx' φ) {i : Nat} (hi : φ (i + 1) = φ i + 2) :
    rules.checkToken ctx' (φ i + 1) = [] := by
  unfold checkToken
  rw [List.filter_eq_nil_iff.2, List.flatMap_nil]
  intro sniff hsniff hlistens
  rw [hctx.stream.has_left hi, List.contains_iff_mem] at hlistens
  exact (hrules sniff hsniff).listens hlistens

/-- Over the whole stream the same is reported. -/
theorem check_image (hrules : ∀ sniff ∈ rules.sniffs, sniff.Invariant)
    (hctx : ctx.Mirrors ctx' φ) (hreturn : '\r' ∉ ctx.source)
    (hsource : ctx'.source = withReturns ctx.source) :
    (rules.check ctx').map Violation.withoutExtent = (rules.check ctx).map Violation.withoutExtent := by
  obtain ⟨hrange', hrange⟩ := hctx.stream.range_size_image
  rw [check, check, hrange', hrange, List.map_flatMap, List.map_flatMap]
  refine hctx.stream.flatMap_range'_image (fun i _ _ => ?_) fun i htwo => ?_
  · exact checkToken_image hrules hctx hreturn hsource i
  · rw [checkToken_left hrules hctx htwo, List.map_nil]

end Runs

theorem withoutExtent_sortByLine (vs : List Violation) :
    (sortByLine vs).map Violation.withoutExtent = sortByLine (vs.map Violation.withoutExtent) :=
  List.map_mergeSort fun _ _ _ _ => rfl

/-! ## Whole sources -/

/-- Rules that do not depend on line ends report the same for both forms of a source. -/
theorem checkSource_image {rules : Ruleset} (hrules : ∀ sniff ∈ rules.sniffs, sniff.Invariant)
    {source : Text} (hreturn : '\r' ∉ source) (base path : FilePath) :
    (rules.checkSource base path (withReturns source)).map (List.map Violation.withoutExtent) =
      (rules.checkSource base path source).map (List.map Violation.withoutExtent) := by
  unfold checkSource
  rcases TokenStream.ofSource_withReturns hreturn with ⟨e, herror, herror'⟩ | ⟨s, s', φ, hok, hok', h⟩
  · rw [herror, herror']
  · have hcheck := check_image hrules (FileContext.mirrors_under h base path source) hreturn rfl
    rw [hok, hok']
    dsimp only [Except.map]
    rw [withoutExtent_sortByLine, withoutExtent_sortByLine, hcheck]

end Ruleset

/-- The checks that are provided, with any severity and any options. -/
inductive Sniff.IsProvided : Sniff → Prop
  | strictDeclaration (severity : Severity) : IsProvided (StrictDeclaration.sniff severity)
  | functionComment (severity : Severity) (testClasses : List Text) :
    IsProvided (FunctionComment.sniff severity testClasses)
  | docCommentSpacing (severity : Severity) (spacing : DocCommentSpacing.Spacing) :
    IsProvided (DocCommentSpacing.sniff severity spacing)
  | arrayTrailingComma (severity : Severity) : IsProvided (ArrayTrailingComma.sniff severity)
  | operandOrder (severity : Severity) (style : OperandOrder.Style) :
    IsProvided (OperandOrder.sniff severity style)

/-- No provided check depends on line ends. -/
theorem Sniff.IsProvided.invariant {sniff : Sniff} (h : sniff.IsProvided) : sniff.Invariant := by
  cases h with
  | strictDeclaration severity => exact StrictDeclaration.invariant_sniff severity
  | functionComment severity testClasses => exact FunctionComment.invariant_sniff severity testClasses
  | docCommentSpacing severity spacing => exact DocCommentSpacing.invariant_sniff severity spacing
  | arrayTrailingComma severity => exact ArrayTrailingComma.invariant_sniff severity
  | operandOrder severity style => exact OperandOrder.invariant_sniff severity style

/-- A configuration asks for provided checks only. -/
theorem Config.isProvided_of_mem_sniffs {config : Config} {sniff : Sniff}
    (h : sniff ∈ config.sniffs) : sniff.IsProvided := by
  unfold Config.sniffs at h
  cases hpreset : config.chosenPreset with
  | minimal =>
    rw [hpreset] at h
    obtain rfl := List.mem_singleton.1 h
    exact .strictDeclaration .error
  | standard =>
    rw [hpreset] at h
    simp only [Preset.sniffs, List.mem_cons, List.not_mem_nil, or_false] at h
    rcases h with rfl | rfl | rfl | rfl | rfl
    · exact .strictDeclaration _
    · exact .functionComment _ _
    · exact .docCommentSpacing _ _
    · exact .arrayTrailingComma _
    · exact .operandOrder _ _

/-- **Line ends do not matter**: with a carriage return before each line feed, a source has the same
error if it has one, and any choice of provided checks under any configuration reports the same
violations in the same order, extents in bytes apart. -/
theorem checkSource_withReturns {source : Text} (hreturn : '\r' ∉ source) :
    (∀ e, TokenStream.ofSource (withReturns source) = .error e ↔
      TokenStream.ofSource source = .error e) ∧
    ∀ (config : Config) (sniffs : List Sniff), (∀ sniff ∈ sniffs, sniff.IsProvided) →
      ∀ base path,
        ((Ruleset.ofConfig sniffs config).checkSource base path (withReturns source)).map
            (List.map Violation.withoutExtent) =
          ((Ruleset.ofConfig sniffs config).checkSource base path source).map
            (List.map Violation.withoutExtent) := by
  constructor
  · intro e
    rcases TokenStream.ofSource_withReturns hreturn with
      ⟨e', herror, herror'⟩ | ⟨s, s', φ, hok, hok', -⟩
    · rw [herror, herror']
    · rw [hok, hok']
      constructor <;> intro h <;> cases h
  · intro config sniffs hsniffs base path
    exact Ruleset.checkSource_image
      (fun sniff hsniff => (hsniffs sniff (List.mem_filter.1 hsniff).1).invariant) hreturn base path

/-- Code that ends in a closing tag and goes on behind a line end. -/
def closedAndReopened : Text := "<?php\nif ($a == 1) ?>\n<?php [1,];\n".toList

/-- With returns a source in which three checks find something has one more token: the line end that
its closing tag leaves. -/
theorem checkSource_withReturns_closedAndReopened :
    '\r' ∉ closedAndReopened ∧ (∀ sniff ∈ Config.sniffs {}, sniff.IsProvided) ∧
      (∃ s, TokenStream.ofSource closedAndReopened = .ok s ∧
        ((Ruleset.ofConfig (Config.sniffs {}) {}).check
            ⟨closedAndReopened, s, .ofStreams [s], ⟨[]⟩⟩).map (·.rule) =
          ["strict-declaration", "yoda-condition", "forbidden-array-trailing-comma"]) ∧
      (TokenStream.ofSource closedAndReopened).map TokenStream.size = .ok 19 ∧
      (TokenStream.ofSource (withReturns closedAndReopened)).map TokenStream.size = .ok 20 ∧
      ((Ruleset.ofConfig (Config.sniffs {}) {}).checkSource ⟨[]⟩ ⟨[]⟩
          (withReturns closedAndReopened)).map (List.map Violation.withoutExtent) =
        ((Ruleset.ofConfig (Config.sniffs {}) {}).checkSource ⟨[]⟩ ⟨[]⟩ closedAndReopened).map
          (List.map Violation.withoutExtent) := by
  have hreturn : '\r' ∉ closedAndReopened := by decide
  have hprovided : ∀ sniff ∈ Config.sniffs {}, sniff.IsProvided :=
    fun _ hsniff => Config.isProvided_of_mem_sniffs hsniff
  refine ⟨hreturn, hprovided, TokenStream.exists_of_map_ofSource (by decide +kernel),
    by decide +kernel, by decide +kernel, ?_⟩
  exact (checkSource_withReturns hreturn).2 {} (Config.sniffs {}) hprovided ⟨[]⟩ ⟨[]⟩

end PhpLint

import PhpLint.CommandLine.Program
import PhpLint.Proofs.Lexing.Layout
import PhpLint.Proofs.Ordering.StableSort

/-!
# Checks do not interfere

All checks of a run write into one list, which is then sorted.  Still each of them could have run
alone: a violation carries the name and the code of the check that reported it, so to leave checks out
is to leave their violations out and nothing else (`check_keep`).  This goes through the sort since a
stable sort commutes with leaving elements out, and it makes no difference whether a check is left out
by the list, by the configuration or by a filter of the command line.

The order of a list of violations is told by their **origins**: the token at which a check was asked,
the place of the check among the others, and the place of the violation among those that the check
reports there.
-/

namespace PhpLint

namespace Ruleset

variable {rules : Ruleset} {ctx : FileContext} {sniff : Sniff} {v : Violation} {i : Nat}

/-! ## Whose violation it is -/

/-- What a check reports carries its name and its code, and lies in the file. -/
structure Stamped (ctx : FileContext) (sniff : Sniff) (v : Violation) : Prop where
  rule : v.rule = sniff.name
  code : v.code = sniff.code
  file : v.location.file = ctx.path

theorem file_location (ctx : FileContext) (i : Nat) : (ctx.location i).file = ctx.path := by
  unfold FileContext.location
  cases ctx.stream.token? i <;> rfl

/-- What a check reports carries its name and code. -/
theorem stamped_of_mem_process (h : v ∈ sniff.process ctx i) : Stamped ctx sniff v := by
  obtain ⟨f, -, rfl⟩ := List.mem_map.1 h
  exact ⟨rfl, rfl, file_location ctx f.index⟩

/-- What directives make of a violation carries the same name and code. -/
theorem Stamped.of_mem_applyDirectives {w : Violation} (hw : Stamped ctx sniff w)
    (h : v ∈ applyDirectives ctx.source sniff w) : Stamped ctx sniff v := by
  unfold applyDirectives at h
  split at h
  · rw [List.mem_singleton] at h
    exact h ▸ hw
  · by_cases hmissing : sniff.requiresReason = true ∧ Option.isNone ‹Option Text› = true
    · rw [← Bool.and_eq_true] at hmissing
      rw [if_pos hmissing, List.mem_singleton] at h
      exact h ▸ ⟨rfl, rfl, hw.file⟩
    · rw [← Bool.and_eq_true] at hmissing
      rw [if_neg hmissing] at h
      exact absurd h List.not_mem_nil

/-- What one check of a rule set reports carries its name and code. -/
theorem stamped_of_mem_checkWith (h : v ∈ rules.checkWith ctx i sniff) : Stamped ctx sniff v := by
  obtain ⟨w, hw, rfl⟩ := List.mem_map.1 h
  obtain ⟨u, hu, hw⟩ := List.mem_flatMap.1 hw
  have hstamped := (stamped_of_mem_process hu).of_mem_applyDirectives hw
  exact ⟨hstamped.rule, hstamped.code, hstamped.file⟩

/-- Each violation of a rule set carries the name and the code of one of its checks. -/
theorem exists_stamped_of_mem_check (h : v ∈ rules.check ctx) :
    ∃ sniff ∈ rules.sniffs, Stamped ctx sniff v := by
  obtain ⟨i, -, h⟩ := List.mem_flatMap.1 h
  obtain ⟨sniff, hsniff, h⟩ := List.mem_flatMap.1 h
  exact ⟨sniff, List.mem_of_mem_filter hsniff, stamped_of_mem_checkWith h⟩

/-! ## Leaving checks out -/

/-- The rules with the checks that satisfy a condition alone. -/
def keep (p : Sniff → Bool) (rules : Ruleset) : Ruleset :=
  { rules with sniffs := rules.sniffs.filter p }

/-- A condition on violations that asks for those of some checks, whichever file they are in. -/
def Selects (sniffs : List Sniff) (p : Sniff → Bool) (q : Violation → Bool) : Prop :=
  ∀ sniff ∈ sniffs, ∀ v : Violation, v.rule = sniff.name → v.code = sniff.code → q v = p sniff

variable {p : Sniff → Bool} {q : Violation → Bool}

/-- A check reports the same whichever other checks there are. -/
theorem checkWith_keep : (rules.keep p).checkWith ctx i = rules.checkWith ctx i := rfl

/-- A filter keeps all or none of what one check reports. -/
theorem filter_checkWith (h : Selects rules.sniffs p q) (hsniff : sniff ∈ rules.sniffs) :
    (rules.checkWith ctx i sniff).filter q = if p sniff then rules.checkWith ctx i sniff else [] := by
  have hq : ∀ v ∈ rules.checkWith ctx i sniff, q v = p sniff := by
    intro v hv
    have hstamped := stamped_of_mem_checkWith hv
    exact h sniff hsniff v hstamped.rule hstamped.code
  cases hp : p sniff with
  | true =>
    rw [if_pos rfl]
    exact List.filter_eq_self.2 fun v hv => (hq v hv).trans hp
  | false =>
    rw [if_neg Bool.false_ne_true]
    exact List.filter_eq_nil_iff.2 fun v hv => by simp [hq v hv, hp]

/-- To leave checks out at a token is to leave out what they report there. -/
theorem checkToken_keep (h : Selects rules.sniffs p q) :
    (rules.keep p).checkToken ctx i = (rules.checkToken ctx i).filter q := by
  have hpart : ∀ sniffs : List Sniff, (∀ sniff ∈ sniffs, sniff ∈ rules.sniffs) →
      (sniffs.filter p).flatMap (rules.checkWith ctx i) =
        (sniffs.flatMap (rules.checkWith ctx i)).filter q := by
    intro sniffs hsub
    rw [List.filter_flatMap]
    induction sniffs with
    | nil => rfl
    | cons sniff sniffs ih =>
      have hrest := ih fun s hs => hsub s (List.mem_cons_of_mem sniff hs)
      rw [List.flatMap_cons, filter_checkWith h (hsub sniff List.mem_cons_self), ← hrest,
        List.filter_cons]
      cases p sniff <;> rfl
  unfold checkToken
  rw [← hpart _ fun sniff hs => List.mem_of_mem_filter hs, checkWith_keep, keep, List.filter_comm]

/-- **To leave checks out is to leave their violations out.** -/
theorem check_keep (h : Selects rules.sniffs p q) :
    (rules.keep p).check ctx = (rules.check ctx).filter q := by
  unfold check
  rw [List.filter_flatMap]
  exact List.flatMap_congr fun i _ => checkToken_keep h

/-- Violations may be left out before or after they are sorted. -/
theorem sortByLine_filter (violations : List Violation) :
    sortByLine (violations.filter q) = (sortByLine violations).filter q := by
  symm
  exact List.filter_mergeSort (isLE_trans Location.lineOrder Violation.location)
    (isLE_total Location.lineOrder Violation.location) q _

/-- To leave checks out over a source is to leave out what they report of it. -/
theorem checkSource_keep (h : Selects rules.sniffs p q) (base path : FilePath) (source : Text) :
    (rules.keep p).checkSource base path source =
      (rules.checkSource base path source).map (List.filter q) := by
  unfold checkSource
  cases TokenStream.ofSource source with
  | error e => rfl
  | ok s =>
    refine congrArg Except.ok ?_
    rw [check_keep h]
    exact sortByLine_filter _

/-- Leaving checks out of a run over a project leaves their violations out of its report. -/
theorem run_keep (a : Analyzer) (h : Selects a.rules.sniffs p q) (tree : FileTree) :
    { a with rules := a.rules.keep p }.run tree =
      (a.run tree).map fun report => { report with violations := report.violations.filter q } := by
  have hcheck (base : FilePath) (files : List ReadFile) :
      Analyzer.check (a.rules.keep p) base files =
        { Analyzer.check a.rules base files with
          violations := (Analyzer.check a.rules base files).violations.filter q } := by
    have hfilter := List.filter_mergeSort (isLE_trans Location.order Violation.location)
      (isLE_total Location.order Violation.location) q
    unfold Analyzer.check Report.sorted
    simp only [hfilter, List.filter_flatMap, check_keep h]
  have hfiles : { a with rules := a.rules.keep p }.files tree = a.files tree := rfl
  unfold Analyzer.run
  rw [hfiles]
  cases a.files tree with
  | error e => rfl
  | ok files =>
    dsimp only
    cases ReadFile.ofFiles a.strict files with
    | error e => rfl
    | ok sources => exact congrArg Except.ok (hcheck (a.base tree) sources)

/-! ## The order of the violations -/

/-- Where a violation comes from. -/
structure Origin where
  /-- The index of the token at which the check was asked. -/
  token : Nat
  /-- The place of the check among the others. -/
  check : Nat
  /-- The place of the violation among those that the check reports at the token. -/
  place : Nat
  deriving DecidableEq, Repr

/-- The rules report a violation from an origin. -/
def ReportsFrom (rules : Ruleset) (ctx : FileContext) (o : Origin) (v : Violation) : Prop :=
  ∃ sniff, rules.sniffs[o.check]? = some sniff ∧
    ctx.stream.has o.token sniff.listensTo.contains = true ∧
    (rules.checkWith ctx o.token sniff)[o.place]? = some v

/-- What puts violations in order: the line and the column first, and then the origin. -/
def rank (entry : Origin × Violation) : List Nat :=
  [entry.2.location.line, entry.2.location.column, entry.1.token, entry.1.check, entry.1.place]

/-- The violations of one check at a token, with their origins. -/
def tracedWith (rules : Ruleset) (ctx : FileContext) (i : Nat) (entry : Sniff × Nat) :
    List (Origin × Violation) :=
  (rules.checkWith ctx i entry.1).zipIdx.map fun found => (⟨i, entry.2, found.2⟩, found.1)

/-- The violations at a token, with their origins. -/
def tracedAt (rules : Ruleset) (ctx : FileContext) (i : Nat) : List (Origin × Violation) :=
  (rules.sniffs.zipIdx.filter fun entry => ctx.stream.has i entry.1.listensTo.contains).flatMap
    (rules.tracedWith ctx i)

/-- The violations in a file, with their origins. -/
def traced (rules : Ruleset) (ctx : FileContext) : List (Origin × Violation) :=
  (List.range ctx.stream.size).flatMap (rules.tracedAt ctx)

/-- Without the origins stands what one check reports at a token. -/
theorem map_tracedWith (entry : Sniff × Nat) :
    (rules.tracedWith ctx i entry).map Prod.snd = rules.checkWith ctx i entry.1 := by
  unfold tracedWith
  rw [List.map_map]
  exact List.zipIdx_map_fst 0 _

/-- Without the origins stands what is reported at a token. -/
theorem map_tracedAt : (rules.tracedAt ctx i).map Prod.snd = rules.checkToken ctx i := by
  have hsniffs : rules.sniffs = rules.sniffs.zipIdx.map Prod.fst := (List.zipIdx_map_fst 0 _).symm
  unfold tracedAt checkToken
  rw [List.map_flatMap, hsniffs, List.filter_map, List.flatMap_map, ← hsniffs]
  exact List.flatMap_congr fun entry _ => map_tracedWith entry

/-- Without the origins stands what is reported. -/
theorem map_traced : (rules.traced ctx).map Prod.snd = rules.check ctx := by
  unfold traced check
  rw [List.map_flatMap]
  exact List.flatMap_congr fun i _ => map_tracedAt

/-- Each origin is that of a violation reported from there. -/
theorem mem_traced_iff {o : Origin} : (o, v) ∈ rules.traced ctx ↔ rules.ReportsFrom ctx o v := by
  simp only [traced, tracedAt, tracedWith, ReportsFrom, List.mem_flatMap, List.mem_filter,
    List.mem_map, List.mem_range, List.mem_zipIdx_iff_getElem?]
  constructor
  · intro h
    obtain ⟨i, -, entry, ⟨hsniff, hlistens⟩, found, hfound, heq⟩ := h
    obtain ⟨rfl, rfl⟩ := Prod.mk.inj heq
    exact ⟨entry.1, hsniff, hlistens, hfound⟩
  · intro h
    obtain ⟨sniff, hsniff, hlistens, hfound⟩ := h
    exact ⟨o.token, TokenStream.lt_size_of_has hlistens, (sniff, o.check), ⟨hsniff, hlistens⟩,
      (v, o.place), hfound, rfl⟩

/-- One origin comes before another in the order in which the rules are asked. -/
def Origin.Before (a b : Origin) : Prop :=
  a.token < b.token ∨ a.token = b.token ∧
    (a.check < b.check ∨ a.check = b.check ∧ a.place < b.place)

theorem pairwise_zipIdx {α : Type*} (l : List α) : l.zipIdx.Pairwise fun a b => a.2 < b.2 := by
  rw [← List.pairwise_map (f := Prod.snd) (R := (· < ·)), List.zipIdx_map_snd]
  exact List.pairwise_lt_range'

/-- Violations are reported in the order of their origins. -/
theorem pairwise_traced : (rules.traced ctx).Pairwise fun a b => a.1.Before b.1 := by
  have horigin {i : Nat} {entry : Sniff × Nat} {a : Origin × Violation}
      (ha : a ∈ rules.tracedWith ctx i entry) : a.1.token = i ∧ a.1.check = entry.2 := by
    obtain ⟨found, -, rfl⟩ := List.mem_map.1 ha
    exact ⟨rfl, rfl⟩
  have htoken {i : Nat} {a : Origin × Violation} (ha : a ∈ rules.tracedAt ctx i) :
      a.1.token = i := by
    obtain ⟨entry, -, ha⟩ := List.mem_flatMap.1 ha
    exact (horigin ha).1
  unfold traced
  rw [List.pairwise_flatMap]
  constructor
  · intro i _
    unfold tracedAt
    rw [List.pairwise_flatMap]
    constructor
    · intro entry _
      unfold tracedWith
      rw [List.pairwise_map]
      exact (pairwise_zipIdx _).imp fun h => .inr ⟨rfl, .inr ⟨rfl, h⟩⟩
    · refine ((pairwise_zipIdx rules.sniffs).filter _).imp ?_
      intro x y hxy a ha b hb
      rw [Origin.Before, (horigin ha).1, (horigin ha).2, (horigin hb).1, (horigin hb).2]
      exact .inr ⟨rfl, .inl hxy⟩
  · refine List.pairwise_lt_range.imp ?_
    intro i j hij a ha b hb
    exact .inl (by rw [htoken ha, htoken hb]; exact hij)

/-- Of two violations in order, equal places by their origins, the first has the lower rank. -/
theorem rank_lt_of_isLE {a b : Origin × Violation}
    (hle : (a.2.location.lineOrder b.2.location).isLE = true)
    (hties : (b.2.location.lineOrder a.2.location).isLE = true → a.1.Before b.1) :
    rank a < rank b := by
  rw [Location.isLE_lineOrder_iff] at hle hties
  simp only [rank, List.cons_lt_cons_iff, List.lt_irrefl, and_false, or_false]
  rcases hle with hline | ⟨hline, hcolumn⟩
  · exact .inl hline
  · refine .inr ⟨hline, ?_⟩
    rcases Nat.lt_or_eq_of_le hcolumn with hcolumn | hcolumn
    · exact .inl hcolumn
    · exact .inr ⟨hcolumn, hties (.inr ⟨hline.symm, hcolumn.ge⟩)⟩

/-- The violations of a file in order are those that its rules report, by line, column and origin. -/
theorem exists_traced (rules : Ruleset) (ctx : FileContext) :
    ∃ entries : List (Origin × Violation),
      entries.map Prod.snd = sortByLine (rules.check ctx) ∧
      (∀ o v, (o, v) ∈ entries ↔ rules.ReportsFrom ctx o v) ∧
      entries.Pairwise fun a b => rank a < rank b := by
  let place (entry : Origin × Violation) : Location := entry.2.location
  refine ⟨(rules.traced ctx).mergeSort fun a b => ((place a).lineOrder (place b)).isLE, ?_, ?_, ?_⟩
  · rw [← map_traced]
    exact List.map_mergeSort fun a _ b _ => rfl
  · intro o v
    rw [List.mem_mergeSort, mem_traced_iff]
  · have htraced : (rules.traced ctx).Pairwise fun a b => a.1.Before b.1 := pairwise_traced
    have hpairwise := List.pairwise_mergeSort_of_pairwise (isLE_trans Location.lineOrder place)
      (isLE_total Location.lineOrder place) htraced
    refine hpairwise.imp ?_
    intro a b hab
    obtain ⟨hle, hties⟩ := hab
    exact rank_lt_of_isLE hle hties

end Ruleset

/-! ## Disabled rules and chosen checks -/

namespace Config

/-- The configuration with some rules disabled, and all that it says about them kept. -/
def disable (config : Config) (names : List Text) : Config :=
  { config with
    rules := names.map (fun name =>
      (name, { (config.rule? name).getD {} with enabled := some false })) ++ config.rules }

variable {config : Config} {names : List Text} {name : Text}

/-- A disabled rule keeps its other settings. -/
theorem rule?_disable :
    (config.disable names).rule? name =
      if name ∈ names then some { (config.rule? name).getD {} with enabled := some false }
      else config.rule? name := by
  unfold rule? disable
  rw [List.lookup_append]
  induction names with
  | nil => simp
  | cons first names ih =>
    rw [List.map_cons, List.lookup_cons]
    by_cases hfirst : name = first
    · subst hfirst
      simp [rule?]
    · simp only [beq_false_of_ne hfirst, List.mem_cons, hfirst, false_or]
      exact ih

/-- A rule that is disabled keeps its severity and its options. -/
theorem rule?_disable_getD :
    ((config.disable names).rule? name).getD {} =
      { (config.rule? name).getD {} with
        enabled := if name ∈ names then some false else ((config.rule? name).getD {}).enabled } := by
  rw [rule?_disable]
  by_cases hname : name ∈ names
  · rw [if_pos hname, if_pos hname]
    rfl
  · rw [if_neg hname, if_neg hname]

/-- A rule is enabled when it was and is not among the disabled. -/
theorem isEnabled_disable :
    (config.disable names).isEnabled name = (!names.contains name && config.isEnabled name) := by
  unfold isEnabled
  rw [rule?_disable]
  by_cases hname : name ∈ names <;> simp [hname]

/-- Disabling rules changes no severity. -/
theorem severity?_disable : (config.disable names).severity? = config.severity? := by
  funext name
  unfold severity?
  rw [rule?_disable]
  by_cases hname : name ∈ names
  · rw [if_pos hname]
    cases config.rule? name <;> rfl
  · rw [if_neg hname]

/-- The checks that a configuration asks for do not depend on which rules are enabled. -/
theorem sniffs_disable : (config.disable names).sniffs = config.sniffs := by
  have hpreset : (config.disable names).chosenPreset = config.chosenPreset := rfl
  unfold sniffs
  rw [hpreset]
  cases config.chosenPreset with
  | minimal => rfl
  | standard =>
    simp only [Preset.sniffs, rule?_disable_getD]
    rfl

end Config

namespace Ruleset

variable {sniffs : List Sniff} {config : Config} {p : Sniff → Bool} {source : Text}

/-- To choose checks before the configuration or after it is the same. -/
theorem ofConfig_filter : ofConfig (sniffs.filter p) config = (ofConfig sniffs config).keep p := by
  unfold ofConfig keep
  rw [List.filter_comm]

/-- Disabled rules are checks left out. -/
theorem ofConfig_disable (names : List Text) :
    ofConfig sniffs (config.disable names) =
      (ofConfig sniffs config).keep fun sniff => !names.contains sniff.name.toList := by
  unfold ofConfig keep
  simp only [Config.severity?_disable, Config.isEnabled_disable, List.filter_filter]

/-- Under different names, a condition on checks is one on the rules of violations. -/
theorem selects_of_nodup (hnames : (sniffs.map Sniff.name).Nodup) (p : Sniff → Bool) :
    Selects sniffs p fun v => (sniffs.filter p).any (·.name == v.rule) := by
  intro sniff hsniff v hrule hcode
  dsimp only
  rw [hrule, Bool.eq_iff_iff, List.any_eq_true]
  constructor
  · intro h
    obtain ⟨other, hother, hname⟩ := h
    obtain ⟨hmem, hp⟩ := List.mem_filter.1 hother
    have hsame := List.inj_on_of_nodup_map hnames hmem hsniff (eq_of_beq hname)
    exact hsame ▸ hp
  · intro hp
    exact ⟨sniff, List.mem_filter.2 ⟨hsniff, hp⟩, beq_self_eq_true _⟩

/-- Under different names, a check is the only one of its name. -/
theorem filter_name_eq (hnames : (sniffs.map Sniff.name).Nodup) {sniff : Sniff}
    (hsniff : sniff ∈ sniffs) : sniffs.filter (·.name == sniff.name) = [sniff] := by
  obtain ⟨before, after, rfl⟩ := List.append_of_mem hsniff
  rw [List.map_append, List.map_cons, List.nodup_middle, List.nodup_cons, List.mem_append,
    not_or] at hnames
  obtain ⟨⟨hbefore, hafter⟩, -⟩ := hnames
  have hother (l : List Sniff) (hl : sniff.name ∉ l.map Sniff.name) :
      l.filter (·.name == sniff.name) = [] := by
    refine List.filter_eq_nil_iff.2 fun other hmem heq => hl ?_
    exact eq_of_beq heq ▸ List.mem_map_of_mem hmem
  rw [List.filter_append, List.filter_cons, hother before hbefore, hother after hafter]
  simp

/-- The checks of a list have no influence on each other under a configuration. -/
structure Independent (sniffs : List Sniff) (config : Config) : Prop where
  /-- A source is checked, and its violations are those that the enabled checks report, each once, by
  line, column and origin. -/
  ordered : ∀ base path source s, TokenStream.ofSource source = .ok s →
    ∃ entries : List (Origin × Violation),
      (ofConfig sniffs config).checkSource base path source = .ok (entries.map Prod.snd) ∧
      (∀ o v, (o, v) ∈ entries ↔ (ofConfig sniffs config).ReportsFrom
        (.under base path source s (.ofStreams [s])) o v) ∧
      entries.Pairwise fun a b => rank a < rank b
  /-- Every violation carries the name of a check of the list. -/
  named : ∀ base path source found, (ofConfig sniffs config).checkSource base path source = .ok found →
    ∀ v ∈ found, ∃ sniff ∈ sniffs, v.rule = sniff.name
  /-- The violations of one check are those that it finds by itself. -/
  alone : ∀ sniff ∈ sniffs, ∀ base path source,
    (ofConfig [sniff] config).checkSource base path source =
      ((ofConfig sniffs config).checkSource base path source).map
        (List.filter (·.rule == sniff.name))
  /-- Some of the checks find what all of them find, without the violations of the others. -/
  selected : ∀ (p : Sniff → Bool) base path source,
    (ofConfig (sniffs.filter p) config).checkSource base path source =
      ((ofConfig sniffs config).checkSource base path source).map
        (List.filter fun v => (sniffs.filter p).any (·.name == v.rule))
  /-- Where rules are disabled, their violations are missing and nothing else is. -/
  disabled : ∀ (names : List Text) base path source,
    (ofConfig sniffs (config.disable names)).checkSource base path source =
      ((ofConfig sniffs config).checkSource base path source).map
        (List.filter fun v => !names.contains v.rule.toList)
  /-- The same holds of runs over a project. -/
  project : ∀ (p : Sniff → Bool) (a : Analyzer) tree, a.rules = ofConfig sniffs config →
    { a with rules := ofConfig (sniffs.filter p) config }.run tree =
      (a.run tree).map fun report =>
        { report with
          violations := report.violations.filter fun v => (sniffs.filter p).any (·.name == v.rule) }

/-- Checks with different names are independent. -/
theorem independent_of_nodup (hnames : (sniffs.map Sniff.name).Nodup) (config : Config) :
    Independent sniffs config := by
  have hmem {sniff : Sniff} (h : sniff ∈ (ofConfig sniffs config).sniffs) : sniff ∈ sniffs :=
    List.mem_of_mem_filter h
  have hselects (p : Sniff → Bool) : Selects (ofConfig sniffs config).sniffs p
      fun v => (sniffs.filter p).any (·.name == v.rule) :=
    fun sniff h => selects_of_nodup hnames p sniff (hmem h)
  constructor
  case ordered =>
    intro base path source s hsource
    obtain ⟨entries, hentries, hrest⟩ :=
      exists_traced (ofConfig sniffs config) (.under base path source s (.ofStreams [s]))
    refine ⟨entries, ?_, hrest⟩
    simp only [checkSource, hsource, hentries]
  case named =>
    intro base path source found hfound v hv
    unfold checkSource at hfound
    cases hsource : TokenStream.ofSource source with
    | error e => simp [hsource] at hfound
    | ok s =>
      simp only [hsource, Except.ok.injEq] at hfound
      rw [← hfound, sortByLine, List.mem_mergeSort] at hv
      obtain ⟨sniff, hsniff, hstamped⟩ := exists_stamped_of_mem_check hv
      exact ⟨sniff, hmem hsniff, hstamped.rule⟩
  case alone =>
    intro sniff hsniff base path source
    rw [← filter_name_eq hnames hsniff, ofConfig_filter]
    apply checkSource_keep
    intro other hother v hrule hcode
    exact congrArg (· == sniff.name) hrule
  case selected =>
    intro p base path source
    rw [ofConfig_filter]
    exact checkSource_keep (hselects p) base path source
  case disabled =>
    intro names base path source
    rw [ofConfig_disable]
    apply checkSource_keep
    intro sniff hsniff v hrule hcode
    exact congrArg (fun rule => !names.contains rule.toList) hrule
  case project =>
    intro p a tree ha
    rw [ofConfig_filter, ← ha]
    exact run_keep a (ha ▸ hselects p) tree

/-- A list on the command line has the rule or the code of a violation. -/
def isChosen (list : Text) (v : Violation) : Bool :=
  let names := (Text.splitOn ',' list).map Text.trim
  names.contains v.rule.toList || names.contains v.code.toList

/-- Under the standard preset, to choose checks on the command line is to leave the violations of the
others out. -/
theorem checkSource_chosenSniffs (hpreset : config.chosenPreset = .standard) (list : Text)
    (base path : FilePath) (source : Text) :
    (ofConfig (CommandLine.chosenSniffs config (some list)) config).checkSource base path source =
      ((ofConfig (CommandLine.chosenSniffs config none) config).checkSource base path source).map
        (List.filter (isChosen list)) := by
  have hall : CommandLine.chosenSniffs config none = Preset.standard.sniffs config := by
    rw [CommandLine.chosenSniffs, Config.sniffs, hpreset]
  rw [hall, CommandLine.chosenSniffs, ofConfig_filter]
  apply checkSource_keep
  intro sniff hsniff v hrule hcode
  simp only [isChosen, hrule, hcode]

/-- **Checks do not interfere**: under different names, each of them finds what it would find alone,
and to disable a rule or to choose checks leaves the violations of the others as they are. -/
theorem independent_sniffs (hnames : (sniffs.map Sniff.name).Nodup) (config : Config) :
    Independent sniffs config ∧
      (∀ names, (config.disable names).sniffs = config.sniffs) ∧
      (config.chosenPreset = .standard → ∀ list base path source,
        (ofConfig (CommandLine.chosenSniffs config (some list)) config).checkSource
            base path source =
          ((ofConfig (CommandLine.chosenSniffs config none) config).checkSource
            base path source).map (List.filter (isChosen list))) := by
  refine ⟨independent_of_nodup hnames config, fun names => Config.sniffs_disable, ?_⟩
  intro hpreset list base path source
  exact checkSource_chosenSniffs hpreset list base path source

/-- Three of the checks of the standard preset find something in a source. -/
theorem independent_sniffs_standard :
    ((Config.sniffs {}).map Sniff.name).Nodup ∧ Independent (Config.sniffs {}) {} ∧
      ∃ s, TokenStream.ofSource (String.toList "<?php\nfunction f() { return $a == 1; }") = .ok s ∧
        ((ofConfig (Config.sniffs {}) {}).check ⟨[], s, .ofStreams [s], ⟨[]⟩⟩).map (·.rule) =
          ["strict-declaration", "function-comment", "yoda-condition"] := by
  have hnames : ((Config.sniffs {}).map Sniff.name).Nodup := by decide
  refine ⟨hnames, (independent_sniffs hnames {}).1, ?_⟩
  exact TokenStream.exists_of_map_ofSource (by decide +kernel)

end Ruleset

end PhpLint

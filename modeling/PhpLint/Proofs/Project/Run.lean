import PhpLint.Preset
import PhpLint.Proofs.LineEnds.Invariance
import PhpLint.Proofs.Path.Relative
import PhpLint.Proofs.Ruleset.Independence

/-!
# Runs over a project, file by file

A run over a project sorts all violations at once, by file, line and column.  Since the files come in
the order of their paths, and cutting the base off keeps that order, the outcome is what the files give
one after another, each sorted by line and column alone (`runs_byFile`).  A check that does not look at
the declarations of other files reports what it would report of the source by itself.

A strict run reads the same files; it ends at the first one that is no source text.
-/

namespace PhpLint

/-! ## Files that are source text -/

namespace Utf8

/-- Text is read the same whether or not other bytes would be replaced. -/
theorem decodeLossy_of_decode {bytes : List UInt8} {t : Text} (h : decode bytes = .ok t) :
    decodeLossy bytes = t := by
  have hshown (ps : List Piece) (offset : Nat) (t : Text) (h : charactersFrom offset ps = .ok t) :
      ps.map Piece.shown = t := by
    induction ps generalizing offset t with
    | nil =>
      cases h
      rfl
    | cons piece ps ih =>
      cases piece with
      | character c =>
        unfold charactersFrom at h
        cases hrest : charactersFrom (offset + c.utf8Size) ps with
        | error fault =>
          rw [hrest] at h
          cases h
        | ok rest =>
          rw [hrest] at h
          cases h
          rw [List.map_cons, ih _ rest hrest]
          rfl
      | malformed n => cases h
      | truncated => cases h
  exact hshown _ 0 t h

end Utf8

namespace SourceFile

/-- What is wrong with a file that is no source text: its bytes, or else its tokens. -/
def fault? (f : SourceFile) : Option String :=
  match Utf8.decode f.bytes with
  | .error fault => some fault.message
  | .ok t =>
    match TokenStream.ofSource t with
    | .error e => some e.message
    | .ok _ => none

end SourceFile

namespace ReadFile

variable {f : SourceFile} {r : ReadFile} {files : List SourceFile}

/-- The files that are source text once bytes that are no text are replaced. -/
def readable (files : List SourceFile) : List ReadFile :=
  files.filterMap fun f => (ofFile f).toOption

/-- A file with tokens is read as its path, its text and those tokens. -/
theorem ofFile_of_ok {stream : TokenStream}
    (h : TokenStream.ofSource (Utf8.decodeLossy f.bytes) = .ok stream) :
    ofFile f = .ok ⟨f.path, Utf8.decodeLossy f.bytes, stream⟩ := by
  simp only [ofFile, h]

/-- A file without tokens is an error at its path. -/
theorem ofFile_of_error {e : LexError}
    (h : TokenStream.ofSource (Utf8.decodeLossy f.bytes) = .error e) :
    ofFile f = .error ⟨f.path, e.message⟩ := by
  simp only [ofFile, h]

/-- What is read of a file is its path and its text, and the tokens are those of the text. -/
structure ReadFrom (f : SourceFile) (r : ReadFile) : Prop where
  path : r.path = f.path
  source : r.source = Utf8.decodeLossy f.bytes
  stream : TokenStream.ofSource r.source = .ok r.stream

/-- What is read comes from the file. -/
theorem readFrom_of_ofFile (h : ofFile f = .ok r) : ReadFrom f r := by
  cases hstream : TokenStream.ofSource (Utf8.decodeLossy f.bytes) with
  | error e =>
    rw [ofFile_of_error hstream] at h
    cases h
  | ok stream =>
    rw [ofFile_of_ok hstream] at h
    cases h
    exact ⟨rfl, rfl, hstream⟩

/-- Files that cannot be read have no part in what is read. -/
theorem readable_filter (files : List SourceFile) :
    readable (files.filter fun f => (ofFile f).toOption.isSome) = readable files := by
  unfold readable
  rw [List.filterMap_filter]
  refine List.filterMap_congr fun f _ => ?_
  cases ofFile f <;> rfl

/-- Where no byte is replaced, a strict run reads what any run does. -/
theorem ofFileStrict_of_decode (h : Utf8.decode f.bytes = .ok (Utf8.decodeLossy f.bytes)) :
    ofFileStrict f = ofFile f := by
  rw [ofFileStrict, h]

/-- A file without a fault is read the same way by a strict run. -/
theorem ofFileStrict_of_fault?_eq_none (h : f.fault? = none) :
    ∃ r, ofFileStrict f = .ok r ∧ ofFile f = .ok r := by
  unfold SourceFile.fault? at h
  cases hbytes : Utf8.decode f.bytes with
  | error fault => simp [hbytes] at h
  | ok t =>
    rw [← Utf8.decodeLossy_of_decode hbytes] at hbytes
    have hstrict := ofFileStrict_of_decode hbytes
    cases hstream : TokenStream.ofSource (Utf8.decodeLossy f.bytes) with
    | error e => simp [hbytes, hstream] at h
    | ok stream => exact ⟨_, hstrict.trans (ofFile_of_ok hstream), ofFile_of_ok hstream⟩

/-- A strict run ends at a file with a fault and gives the fault as the cause. -/
theorem ofFileStrict_of_fault?_eq_some {cause : String} (h : f.fault? = some cause) :
    ofFileStrict f = .error ⟨f.path, cause⟩ := by
  unfold SourceFile.fault? at h
  cases hbytes : Utf8.decode f.bytes with
  | error fault =>
    simp only [hbytes, Option.some.injEq] at h
    rw [ofFileStrict, hbytes, ← h]
  | ok t =>
    rw [← Utf8.decodeLossy_of_decode hbytes] at hbytes
    have hstrict := ofFileStrict_of_decode hbytes
    cases hstream : TokenStream.ofSource (Utf8.decodeLossy f.bytes) with
    | error e =>
      simp only [hbytes, hstream, Option.some.injEq] at h
      rw [hstrict, ofFile_of_error hstream, h]
    | ok stream => simp [hbytes, hstream] at h

/-- Files without faults are all read by a strict run. -/
theorem mapM_ofFileStrict_of_forall (h : ∀ f ∈ files, f.fault? = none) :
    files.mapM ofFileStrict = .ok (readable files) := by
  induction files with
  | nil => rfl
  | cons f files ih =>
    obtain ⟨r, hstrict, hfile⟩ := ofFileStrict_of_fault?_eq_none (h f List.mem_cons_self)
    have hrest := ih fun g hg => h g (List.mem_cons_of_mem f hg)
    have hreadable : readable (f :: files) = r :: readable files := by
      simp [readable, hfile, Except.toOption]
    rw [List.mapM_cons, hstrict, hrest, hreadable]
    rfl

/-- Of several files a strict run gives the first fault. -/
theorem mapM_ofFileStrict_of_fault {before after : List SourceFile} {cause : String}
    (hbefore : ∀ g ∈ before, g.fault? = none) (h : f.fault? = some cause) :
    (before ++ f :: after).mapM ofFileStrict = .error ⟨f.path, cause⟩ := by
  induction before with
  | nil =>
    rw [List.nil_append, List.mapM_cons, ofFileStrict_of_fault?_eq_some h]
    rfl
  | cons g before ih =>
    obtain ⟨r, hstrict, -⟩ := ofFileStrict_of_fault?_eq_none (hbefore g List.mem_cons_self)
    have hrest := ih fun k hk => hbefore k (List.mem_cons_of_mem g hk)
    rw [List.cons_append, List.mapM_cons, hstrict, hrest]
    rfl

end ReadFile

/-! ## Checks that do not look at other files -/

/-- The findings of a sniff do not depend on the declarations of other files. -/
def Sniff.IgnoresSymbols (sniff : Sniff) : Prop :=
  ∀ (ctx : FileContext) (symbols : SymbolTable),
    sniff.findings { ctx with symbols } = sniff.findings ctx

/-- The check for strict types looks at no other file. -/
theorem StrictDeclaration.ignoresSymbols_sniff (severity : Severity) :
    (StrictDeclaration.sniff severity).IgnoresSymbols := fun _ _ => rfl

/-- The check of blank lines in doc comments looks at no other file. -/
theorem DocCommentSpacing.ignoresSymbols_sniff (severity : Severity) (spacing : Spacing) :
    (DocCommentSpacing.sniff severity spacing).IgnoresSymbols := fun _ _ => rfl

/-- The check of commas looks at no other file. -/
theorem ArrayTrailingComma.ignoresSymbols_sniff (severity : Severity) :
    (ArrayTrailingComma.sniff severity).IgnoresSymbols := fun _ _ => rfl

/-- The check of operands looks at no other file. -/
theorem OperandOrder.ignoresSymbols_sniff (severity : Severity) (style : Style) :
    (OperandOrder.sniff severity style).IgnoresSymbols := fun _ _ => rfl

/-- Of the checks that a configuration can ask for, only one looks at other files. -/
theorem Config.ignoresSymbols_of_mem_sniffs {config : Config} {sniff : Sniff}
    (h : sniff ∈ config.sniffs) (hname : sniff.name ≠ "function-comment") :
    sniff.IgnoresSymbols := by
  cases Config.isProvided_of_mem_sniffs h with
  | strictDeclaration severity => exact StrictDeclaration.ignoresSymbols_sniff severity
  | functionComment => exact absurd rfl hname
  | docCommentSpacing severity spacing => exact DocCommentSpacing.ignoresSymbols_sniff severity spacing
  | arrayTrailingComma severity => exact ArrayTrailingComma.ignoresSymbols_sniff severity
  | operandOrder severity style => exact OperandOrder.ignoresSymbols_sniff severity style

namespace Ruleset

/-- Checks that look at no other file report the same against any table. -/
theorem check_of_ignoresSymbols {rules : Ruleset}
    (h : ∀ sniff ∈ rules.sniffs, sniff.IgnoresSymbols) (ctx : FileContext) (symbols : SymbolTable) :
    rules.check { ctx with symbols } = rules.check ctx := by
  have hcheck (i : Nat) (sniff : Sniff) (hsniff : sniff ∈ rules.sniffs) :
      rules.checkWith { ctx with symbols } i sniff = rules.checkWith ctx i sniff := by
    unfold checkWith Sniff.process
    rw [h sniff hsniff ctx symbols]
    rfl
  unfold check
  refine List.flatMap_congr fun i _ => List.flatMap_congr fun sniff hsniff => ?_
  exact hcheck i sniff (List.mem_of_mem_filter hsniff)

end Ruleset

namespace Analyzer

open ReadFile (readable ReadFrom)

/-! ## The outcome, file by file -/

/-- The files of a run, as they are found: each of them below the base, and none of them twice. -/
structure Listed (base : FilePath) (files : List SourceFile) : Prop where
  below : ∀ f ∈ files, base.components <+: f.path.components
  distinct : files.Pairwise fun f g => f.path.components ≠ g.path.components

/-- The violations of one file, by line and column. -/
def part (rules : Ruleset) (base : FilePath) (symbols : SymbolTable) (r : ReadFile) :
    List Violation :=
  Ruleset.sortByLine (rules.check (.under base r.path r.source r.stream symbols))

/-- The report that gives the violations of one file after those of another, all files checked against
the declarations of all of them. -/
def byFile (rules : Ruleset) (base : FilePath) (sources : List ReadFile) : Report where
  violations := sources.flatMap (part rules base (.ofStreams (sources.map (·.stream))))
  filesChecked := sources.length

variable {a : Analyzer} {tree : FileTree} {files : List SourceFile} {base : FilePath}

/-- The files of a run come in the order of their paths. -/
theorem pairwise_of_files (h : a.files tree = .ok files) :
    files.Pairwise fun f g => (f.path.order g.path).isLE = true := by
  unfold Analyzer.files at h
  cases hvisible : Discovery.visibleFiles a.settings.respectGitignore tree a.root with
  | error e =>
    rw [hvisible] at h
    cases h
  | ok visible =>
    rw [hvisible] at h
    cases h
    exact List.pairwise_mergeSort (isLE_trans FilePath.order SourceFile.path)
      (isLE_total FilePath.order SourceFile.path) _

/-- Files in order that are different come strictly one after another. -/
theorem Listed.pairwise_lt (h : Listed base files)
    (hsorted : files.Pairwise fun f g => (f.path.order g.path).isLE = true) :
    files.Pairwise fun f g => f.path.order g.path = .lt := by
  refine hsorted.imp₂ ?_ h.distinct
  intro f g hle hne
  cases horder : f.path.order g.path with
  | lt => rfl
  | eq => exact absurd (FilePath.components_eq_of_order_eq horder) hne
  | gt => simp [horder] at hle

/-- In one file, the order of places is that of lines and columns. -/
theorem order_eq_lineOrder {v w : Location} (h : v.file = w.file) : v.order w = v.lineOrder w := by
  have hsame : w.file.order w.file = .eq := Std.ReflCmp.compare_self
  unfold Location.order
  rw [h, hsame]
  rfl

/-- Where files are read below a base, their reported paths are in the order of the files. -/
theorem pairwise_relativeTo (hlisted : Listed base files)
    (hsorted : files.Pairwise fun f g => (f.path.order g.path).isLE = true) :
    (readable files).Pairwise fun r r' =>
      (r.path.relativeTo base).order (r'.path.relativeTo base) = .lt := by
  unfold readable
  rw [List.pairwise_filterMap]
  refine (hlisted.pairwise_lt hsorted).imp_of_mem ?_
  intro f g hf hg hlt r hr r' hr'
  have hread {f : SourceFile} {r : ReadFile} (h : (ReadFile.ofFile f).toOption = some r) :
      r.path = f.path := by
    cases hfile : ReadFile.ofFile f with
    | error e => simp [hfile, Except.toOption] at h
    | ok other =>
      rw [hfile] at h
      cases h
      exact (ReadFile.readFrom_of_ofFile hfile).path
  obtain ⟨left, hleft⟩ := hlisted.below f hf
  obtain ⟨right, hright⟩ := hlisted.below g hg
  rw [hread hr, hread hr', FilePath.order_relativeTo hleft.symm hright.symm]
  exact hlt

/-- **To sort all violations is to sort those of each file**, when the files are in order. -/
theorem check_eq_byFile (rules : Ruleset) (hlisted : Listed base files)
    (hsorted : files.Pairwise fun f g => (f.path.order g.path).isLE = true) :
    check rules base (readable files) = byFile rules base (readable files) := by
  let symbols := SymbolTable.ofStreams ((readable files).map (·.stream))
  let found (r : ReadFile) : List Violation :=
    rules.check (.under base r.path r.source r.stream symbols)
  have hfile {r : ReadFile} {v : Violation} (hv : v ∈ found r) :
      v.location.file = r.path.relativeTo base := by
    obtain ⟨sniff, -, hstamped⟩ := Ruleset.exists_stamped_of_mem_check hv
    exact hstamped.file
  have hbetween : (readable files).Pairwise fun r r' => ∀ v ∈ found r, ∀ w ∈ found r',
      (v.location.order w.location).isLE = true := by
    refine (pairwise_relativeTo hlisted hsorted).imp ?_
    intro r r' hlt v hv w hw
    rw [Location.order, hfile hv, hfile hw, hlt]
    rfl
  have hwithin (r : ReadFile) :
      (found r).mergeSort (fun v w => (v.location.order w.location).isLE) =
        Ruleset.sortByLine (found r) := by
    have hmap := List.map_mergeSort (l := found r) (f := id)
      (r := fun v w => (v.location.order w.location).isLE)
      (s := fun v w => (v.location.lineOrder w.location).isLE)
      (fun v hv w hw => by rw [order_eq_lineOrder ((hfile hv).trans (hfile hw).symm)]; rfl)
    rw [List.map_id, List.map_id] at hmap
    exact hmap
  have hparts : ((readable files).flatMap found).mergeSort
      (fun v w => (v.location.order w.location).isLE) =
        (readable files).flatMap (part rules base symbols) := by
    rw [List.mergeSort_flatMap (isLE_trans Location.order Violation.location)
      (isLE_total Location.order Violation.location) hbetween]
    exact List.flatMap_congr fun r _ => hwithin r
  exact congrArg (Report.mk · (readable files).length) hparts

/-- An analyzer is built when all exclusions can be read. -/
theorem build_eq_ok_iff {current : FilePath} {root : Option FilePath} {sniffs : List Sniff}
    {exclusions : List Text} {config : Config} {strict : Bool} :
    build current root sniffs exclusions config strict = .ok a ↔
      ∃ globs, (exclusions ++ config.analyzer.exclude).mapM Glob.ofPattern = .ok globs ∧
        a = { root := current.join (root.getD config.analyzer.root)
              rules := .ofConfig sniffs config
              exclusions := globs
              settings := config.analyzer
              strict } := by
  unfold build
  cases (exclusions ++ config.analyzer.exclude).mapM Glob.ofPattern with
  | error e =>
    constructor
    · intro h
      cases h
    · intro ⟨_, hglobs, _⟩
      cases hglobs
  | ok globs =>
    constructor
    · intro h
      cases h
      exact ⟨globs, rfl, rfl⟩
    · intro ⟨globs', hglobs, ha⟩
      cases hglobs
      rw [ha]
      rfl

/-- A run that is not strict checks the files that can be read. -/
theorem run_lenient (hfiles : a.files tree = .ok files) :
    { a with strict := false }.run tree = .ok (check a.rules (a.base tree) (readable files)) := by
  have hsame : { a with strict := false }.files tree = .ok files := hfiles
  unfold run
  rw [hsame]
  rfl

/-- A strict run reads all files before it checks any of them. -/
theorem run_strict (hfiles : a.files tree = .ok files) :
    { a with strict := true }.run tree =
      match files.mapM ReadFile.ofFileStrict with
      | .error e => .error (.parse e)
      | .ok sources => .ok (check a.rules (a.base tree) sources) := by
  have hsame : { a with strict := true }.files tree = .ok files := hfiles
  unfold run
  rw [hsame]
  rfl

/-- What checks that ignore other files report of a file is what they report of its source. -/
theorem checkSource_of_ignoresSymbols {rules : Ruleset} {f : SourceFile} {r : ReadFile}
    (hread : ReadFrom f r) (hsniffs : ∀ sniff ∈ rules.sniffs, sniff.IgnoresSymbols)
    (symbols : SymbolTable) :
    rules.checkSource base f.path (Utf8.decodeLossy f.bytes) = .ok (part rules base symbols r) := by
  have hcheck := Ruleset.check_of_ignoresSymbols hsniffs
    (.under base r.path r.source r.stream (.ofStreams [r.stream])) symbols
  rw [← hread.path, ← hread.source]
  simp only [Ruleset.checkSource, hread.stream]
  exact congrArg (fun found => Except.ok (Ruleset.sortByLine found)) hcheck.symm

/-- A run over some files gives what the files give one by one. -/
structure RunsByFile (a : Analyzer) (tree : FileTree) (files : List SourceFile) : Prop where
  /-- The files are checked in the order of their paths. -/
  ordered : files.Pairwise fun f g => f.path.order g.path = .lt
  /-- A lenient run gives the violations of one file after those of another, and counts the files that
  are source text. -/
  lenient : { a with strict := false }.run tree =
    .ok (byFile a.rules (a.base tree) (readable files))
  /-- The violations of one file are in the order of their lines and columns. -/
  sorted : ∀ symbols r, (part a.rules (a.base tree) symbols r).Pairwise fun v w =>
    (v.location.lineOrder w.location).isLE = true
  /-- Files that are no source text make no difference. -/
  unread : ∀ tree', a.base tree' = a.base tree →
    a.files tree' = .ok (files.filter fun f => (ReadFile.ofFile f).toOption.isSome) →
    { a with strict := false }.run tree' = { a with strict := false }.run tree
  /-- Those of the checks that ignore other files report of a file what they report of its source. -/
  alone : ∀ p q, Ruleset.Selects a.rules.sniffs p q →
    (∀ sniff ∈ a.rules.sniffs, p sniff = true → sniff.IgnoresSymbols) →
    ∀ f ∈ files, ∀ r, ReadFile.ofFile f = .ok r → ∀ symbols,
      (a.rules.keep p).checkSource (a.base tree) f.path (Utf8.decodeLossy f.bytes) =
        .ok ((part a.rules (a.base tree) symbols r).filter q)
  /-- A strict run over files without a fault is a lenient one. -/
  strict : (∀ f ∈ files, f.fault? = none) →
    { a with strict := true }.run tree = { a with strict := false }.run tree
  /-- A strict run fails at the first file that has a fault. -/
  first : ∀ before f after cause, files = before ++ f :: after →
    (∀ g ∈ before, g.fault? = none) → f.fault? = some cause →
    { a with strict := true }.run tree = .error (.parse ⟨f.path, cause⟩)

/-- **A run over a project is the checks of its files one after another.** -/
theorem runs_byFile (hfiles : a.files tree = .ok files) (hlisted : Listed (a.base tree) files) :
    RunsByFile a tree files := by
  have hsorted := pairwise_of_files hfiles
  constructor
  case ordered => exact hlisted.pairwise_lt hsorted
  case lenient => rw [run_lenient hfiles, check_eq_byFile a.rules hlisted hsorted]
  case sorted =>
    intro symbols r
    exact List.pairwise_mergeSort (isLE_trans Location.lineOrder Violation.location)
      (isLE_total Location.lineOrder Violation.location) _
  case unread =>
    intro tree' hbase hfiles'
    rw [run_lenient hfiles', run_lenient hfiles, hbase, ReadFile.readable_filter]
  case alone =>
    intro p q hselects hignore f hf r hr symbols
    have hread := ReadFile.readFrom_of_ofFile hr
    have hkept : ∀ sniff ∈ (a.rules.keep p).sniffs, sniff.IgnoresSymbols := by
      intro sniff hsniff
      obtain ⟨hmem, hp⟩ := List.mem_filter.1 hsniff
      exact hignore sniff hmem hp
    rw [checkSource_of_ignoresSymbols hread hkept symbols]
    unfold part
    rw [Ruleset.check_keep hselects, Ruleset.sortByLine_filter]
  case strict =>
    intro hnone
    rw [run_strict hfiles, ReadFile.mapM_ofFileStrict_of_forall hnone, run_lenient hfiles]
  case first =>
    intro before f after cause hsplit hbefore hfault
    rw [run_strict hfiles, hsplit, ReadFile.mapM_ofFileStrict_of_fault hbefore hfault]

/-- Visible files that are in order are the files of a run, those left out that are not selected. -/
theorem files_of_visibleFiles {visible : List SourceFile}
    (hvisible : Discovery.visibleFiles a.settings.respectGitignore tree a.root = .ok visible)
    (hselected : visible.filter (fun f => a.selects (a.base tree) f.path) = files)
    (hsorted : files.Pairwise fun f g => (f.path.order g.path).isLE = true) :
    a.files tree = .ok files := by
  unfold Analyzer.files
  rw [hvisible]
  have hsort := List.mergeSort_of_pairwise hsorted
  rw [← hselected] at hsort ⊢
  exact congrArg Except.ok hsort

deriving instance DecidableEq for SourceFile

/-- The second of three files breaks off inside of a string, and a file of another kind is not read.  All
checks but one report of each file what they report of its source. -/
theorem runs_byFile_unclosed :
    ∃ (a : Analyzer) (tree : FileTree) (files : List SourceFile),
      a.files tree = .ok files ∧ Listed (a.base tree) files ∧
      files.map (fun f => (f.path, f.fault?.isSome)) =
        [(.ofString "/p/a.php", false), (.ofString "/p/b.php", true), (.ofString "/p/c.php", false)] ∧
      RunsByFile a tree files ∧
      ∀ f ∈ files, ∀ r, ReadFile.ofFile f = .ok r → ∀ symbols,
        (a.rules.keep (·.name != "function-comment")).checkSource (a.base tree) f.path
            (Utf8.decodeLossy f.bytes) =
          .ok ((part a.rules (a.base tree) symbols r).filter (·.rule != "function-comment")) := by
  let file (name text : String) : Text × FileTree :=
    (name.toList, .file (Utf8.encode text.toList))
  let tree : FileTree := .directory [("p".toList, .directory
    [file "a.php" "<?php $a = 1;", file "b.php" "<?php '", file "c.php" "<?php ", file "d.txt" ""])]
  let a : Analyzer :=
    { root := .ofString "/p", rules := .ofConfig (Config.sniffs {}) {}, exclusions := []
      settings := {}, strict := true }
  let read (path text : String) : SourceFile := ⟨.ofString path, Utf8.encode text.toList⟩
  let files := [read "/p/a.php" "<?php $a = 1;", read "/p/b.php" "<?php '", read "/p/c.php" "<?php "]
  have hvisible : Discovery.visibleFiles true tree a.root = .ok (files ++ [read "/p/d.txt" ""]) := by
    decide +kernel
  have hfiles : a.files tree = .ok files :=
    files_of_visibleFiles hvisible (by decide +kernel) (by decide +kernel)
  have hlisted : Listed (a.base tree) files := ⟨by decide +kernel, by decide +kernel⟩
  have hruns : RunsByFile a tree files := runs_byFile hfiles hlisted
  have hselects : Ruleset.Selects a.rules.sniffs (·.name != "function-comment")
      (·.rule != "function-comment") := by
    intro sniff _ v hrule _
    exact congrArg (· != "function-comment") hrule
  refine ⟨a, tree, files, hfiles, hlisted, by decide +kernel, hruns, hruns.alone _ _ hselects ?_⟩
  intro sniff hsniff hname
  exact Config.ignoresSymbols_of_mem_sniffs (List.mem_of_mem_filter hsniff) (bne_iff_ne.1 hname)

end Analyzer

end PhpLint

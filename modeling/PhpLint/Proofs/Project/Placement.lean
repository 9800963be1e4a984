import PhpLint.Proofs.Project.Exclusion
import PhpLint.Proofs.Project.Listing
import PhpLint.Proofs.Project.Run

/-!
# Runs over one directory in two places

A run that starts at a directory is a run over the directory by itself, with the root put in front of
the paths of its files and cut off again for the report (`run_of_placed`).  Which rules of ignore files
apply, which extension a file has, in what order the files come, whether a file is a test: none of this
looks at the root.

The one thing that does are the exclusions, which read absolute paths too.  Where they tell no
difference between two roots, the runs have one outcome (`run_placed`).  They can tell a difference:
below a directory called `vendor`, `**/vendor/**` covers everything (`run_vendored`).
-/

namespace PhpLint

open Discovery (filesOf Placed)
open FilePath (Inside)

/-! ## Reading the files -/

/-- The file with a base in front of its path. -/
def ReadFile.under (base : FilePath) (r : ReadFile) : ReadFile := { r with path := base.join r.path }

/-- The error with a base in front of its path. -/
def ParseError.under (base : FilePath) (e : ParseError) : ParseError :=
  { e with file := base.join e.file }

namespace ReadFile

variable (R : FilePath) {strict : Bool} {files : List SourceFile} {sources : List ReadFile}

/-- A base in front of a file stands in front of what is read of it, or of its error. -/
theorem ofFile_under (f : SourceFile) :
    ofFile (f.under R) = ((ofFile f).map (·.under R)).mapError (·.under R) := by
  cases hstream : TokenStream.ofSource (Utf8.decodeLossy f.bytes) with
  | error e =>
    have hunder : ofFile (f.under R) = .error ⟨R.join f.path, e.message⟩ := ofFile_of_error hstream
    rw [hunder, ofFile_of_error hstream]
    rfl
  | ok stream =>
    have hunder : ofFile (f.under R) =
        .ok ⟨R.join f.path, Utf8.decodeLossy f.bytes, stream⟩ := ofFile_of_ok hstream
    rw [hunder, ofFile_of_ok hstream]
    rfl

/-- The same holds of a strict reading. -/
theorem ofFileStrict_under (f : SourceFile) :
    ofFileStrict (f.under R) = ((ofFileStrict f).map (·.under R)).mapError (·.under R) := by
  have hbytes : (f.under R).bytes = f.bytes := rfl
  unfold ofFileStrict
  rw [ofFile_under, hbytes]
  cases Utf8.decode f.bytes <;> rfl

/-- A base in front of files stands in front of what is read of them, or of the first error. -/
theorem ofFiles_under (strict : Bool) (files : List SourceFile) :
    ofFiles strict (files.map (·.under R)) =
      ((ofFiles strict files).map (List.map (·.under R))).mapError (·.under R) := by
  cases strict with
  | false =>
    refine congrArg Except.ok ?_
    rw [List.filterMap_map, List.map_filterMap]
    refine List.filterMap_congr fun f _ => ?_
    rw [Function.comp_apply, ofFile_under]
    cases ofFile f <;> rfl
  | true =>
    simp only [ofFiles, if_true]
    induction files with
    | nil => rfl
    | cons f files ih =>
      rw [List.map_cons, List.mapM_cons, List.mapM_cons, ofFileStrict_under, ih]
      cases ofFileStrict f with
      | error e => rfl
      | ok r => cases files.mapM ofFileStrict <;> rfl

/-- What a strict reading answers any reading does. -/
theorem ofFileStrict_eq_ofFile {f : SourceFile} {r : ReadFile} (h : ofFileStrict f = .ok r) :
    ofFile f = .ok r := by
  unfold ofFileStrict at h
  split at h
  · exact h
  · cases h

/-- What is read comes from the files. -/
theorem exists_of_mem_ofFiles (h : ofFiles strict files = .ok sources) {r : ReadFile}
    (hr : r ∈ sources) : ∃ f ∈ files, r.path = f.path := by
  cases strict with
  | false =>
    cases h
    obtain ⟨f, hf, hread⟩ := List.mem_filterMap.1 hr
    cases hfile : ofFile f with
    | error e => simp [hfile, Except.toOption] at hread
    | ok other =>
      rw [hfile] at hread
      cases hread
      exact ⟨f, hf, (readFrom_of_ofFile hfile).path⟩
  | true =>
    simp only [ofFiles, if_true] at h
    induction files generalizing sources with
    | nil =>
      cases h
      cases hr
    | cons f files ih =>
      rw [List.mapM_cons] at h
      cases hfile : ofFileStrict f with
      | error e =>
        rw [hfile] at h
        cases h
      | ok first =>
        cases hrest : files.mapM ofFileStrict with
        | error e =>
          rw [hfile, hrest] at h
          cases h
        | ok rest =>
          rw [hfile, hrest] at h
          cases h
          rcases List.mem_cons.1 hr with rfl | hr
          · exact ⟨f, List.mem_cons_self,
              (readFrom_of_ofFile (ofFileStrict_eq_ofFile hfile)).path⟩
          · obtain ⟨g, hg, hpath⟩ := ih hr hrest
            exact ⟨g, List.mem_cons_of_mem f hg, hpath⟩

end ReadFile

namespace Analyzer

variable {a : Analyzer} {tree tree₁ tree₂ node : FileTree} {R R₁ R₂ : FilePath}

/-! ## The run by itself -/

/-- The analyzer with another root. -/
def rootedAt (a : Analyzer) (root : FilePath) : Analyzer := { a with root }

/-- The run over files by themselves, those that are selected. -/
def runOver (a : Analyzer) (selected : FilePath → Bool) (found : List SourceFile) :
    Except ParseError Report :=
  let files := found.filter fun f => selected f.path
  (ReadFile.ofFiles a.strict (files.mergeSort fun f g => (f.path.order g.path).isLE)).map
    (check a.rules ⟨[]⟩)

/-- The run over a directory by itself, over the files that are selected. -/
def runAlone (a : Analyzer) (selected : FilePath → Bool) (node : FileTree) :
    Except ParseError Report :=
  let files := (filesOf a.settings.respectGitignore node).filter fun f => selected f.path
  (ReadFile.ofFiles a.strict (files.mergeSort fun f g => (f.path.order g.path).isLE)).map
    (check a.rules ⟨[]⟩)

/-- Reports start their paths at a root that is no file. -/
theorem base_of_isDirectory {names : List Text} (hnames : tree.names? R = some names)
    (hbelow : tree.below? names = some node) (hdirectory : node.isDirectory = true) :
    (a.rootedAt R).base tree = R := by
  have hfile : tree.hasFile R = false := by
    simp [FileTree.hasFile, FileTree.at?, hnames, hbelow, FileTree.isFile, hdirectory]
  unfold base
  rw [rootedAt, hfile]
  rfl

/-- Reports start their paths at the root that a directory stands at. -/
theorem base_of_placed (hplaced : Placed tree R node) (hdirectory : node.isDirectory = true) :
    (a.rootedAt R).base tree = R := by
  obtain ⟨names, hnames, hbelow, -⟩ := hplaced.stands
  exact base_of_isDirectory hnames hbelow hdirectory

/-- A check of a file sees its path below the base, so the base does not matter. -/
theorem check_under (hR : R.isAbsolute = true) {rules : Ruleset} {sources : List ReadFile}
    (hinside : ∀ r ∈ sources, Inside r.path) :
    check rules R (sources.map (·.under R)) = check rules ⟨[]⟩ sources := by
  have hcontext (symbols : SymbolTable) (r : ReadFile) (hr : r ∈ sources) :
      FileContext.under R (r.under R).path (r.under R).source (r.under R).stream symbols =
        .under ⟨[]⟩ r.path r.source r.stream symbols := by
    unfold FileContext.under ReadFile.under
    rw [(hinside r hr).relativeTo_join hR, (hinside r hr).relativeTo_nil]
  have hsymbols : (sources.map (·.under R)).map (·.stream) = sources.map (·.stream) := by
    rw [List.map_map]
    rfl
  have hviolations (symbols : SymbolTable) :
      ((sources.map (·.under R)).flatMap fun r =>
        rules.check (.under R r.path r.source r.stream symbols)) =
        sources.flatMap fun r => rules.check (.under ⟨[]⟩ r.path r.source r.stream symbols) := by
    rw [List.flatMap_map]
    exact List.flatMap_congr fun r hr => congrArg rules.check (hcontext symbols r hr)
  unfold check
  rw [hsymbols, List.length_map]
  simp only [hviolations]

section Visible

variable {found : List SourceFile}

/-- The files of a run are those that are found below the root, in the same order. -/
theorem files_of_visible (hR : R.isAbsolute = true) (hbase : (a.rootedAt R).base tree = R)
    (hvisible : Discovery.visibleFiles a.settings.respectGitignore tree R =
      .ok (found.map (·.under R)))
    (hinside : ∀ f ∈ found, Inside f.path) :
    (a.rootedAt R).files tree =
      .ok (((found.filter fun f => a.selects R (R.join f.path)).mergeSort
        fun f g => (f.path.order g.path).isLE).map (·.under R)) := by
  have hroot : Discovery.visibleFiles (a.rootedAt R).settings.respectGitignore tree
      (a.rootedAt R).root = .ok (found.map (·.under R)) := hvisible
  have hfilter (l : List SourceFile) :
      (l.map (·.under R)).filter (fun f => (a.rootedAt R).selects R f.path) =
        (l.filter fun f => a.selects R (R.join f.path)).map (·.under R) := by
    rw [List.filter_map]
    rfl
  unfold files
  rw [hroot, hbase]
  simp only [pure, bind, Except.bind, Except.pure]
  rw [hfilter]
  refine congrArg Except.ok (List.map_mergeSort fun f hf g hg => ?_).symm
  have hf := hinside f (List.mem_filter.1 hf).1
  have hg := hinside g (List.mem_filter.1 hg).1
  simp only [SourceFile.under, hf.order_join hg hR]

/-- A run is the run over the files by themselves, with the root in front of the path of a file that
cannot be read. -/
theorem run_of_visible (hR : R.isAbsolute = true) (hbase : (a.rootedAt R).base tree = R)
    (hvisible : Discovery.visibleFiles a.settings.respectGitignore tree R =
      .ok (found.map (·.under R)))
    (hinside : ∀ f ∈ found, Inside f.path) :
    (a.rootedAt R).run tree =
      (a.runOver (fun p => a.selects R (R.join p)) found).mapError fun e => .parse (e.under R) := by
  let files := (found.filter fun f => a.selects R (R.join f.path)).mergeSort
    fun f g => (f.path.order g.path).isLE
  have hfiles : ∀ f ∈ files, Inside f.path := by
    intro f hf
    rw [List.mem_mergeSort, List.mem_filter] at hf
    exact hinside f hf.1
  have hstrict : (a.rootedAt R).strict = a.strict := rfl
  unfold run runOver
  rw [files_of_visible hR hbase hvisible hinside, hbase]
  simp only [hstrict]
  rw [ReadFile.ofFiles_under R a.strict files]
  cases hread : ReadFile.ofFiles a.strict files with
  | error e => rfl
  | ok sources =>
    have hsources : ∀ r ∈ sources, Inside r.path := by
      intro r hr
      obtain ⟨f, hf, hpath⟩ := ReadFile.exists_of_mem_ofFiles hread hr
      rw [hpath]
      exact hfiles f hf
    exact congrArg Except.ok (check_under hR hsources)

end Visible

/-- **A run is the run over the directory by itself**, with the root in front of the path of a file that
cannot be read. -/
theorem run_of_placed (hplaced : Placed tree R node) (hnode : node.Named)
    (hdirectory : node.isDirectory = true) :
    (a.rootedAt R).run tree =
      (a.runAlone (fun p => a.selects R (R.join p)) node).mapError
        fun e => .parse (e.under R) :=
  run_of_visible hplaced.absolute (base_of_placed hplaced hdirectory)
    (Discovery.visibleFiles_placed hplaced hnode hdirectory)
    (Discovery.filesOf_inside hnode hdirectory)

/-! ## Two places -/

/-- Two roots select the same paths below them when no exclusion tells a difference. -/
theorem selects_eq (hexclusions : ∀ e ∈ a.exclusions, Exclusion.SameAt e R₁ R₂)
    (habsolute₁ : R₁.isAbsolute = true) (habsolute₂ : R₂.isAbsolute = true) {p : FilePath}
    (hp : Inside p) : a.selects R₁ (R₁.join p) = a.selects R₂ (R₂.join p) := by
  have hcovers : a.exclusions.any (Exclusion.covers R₁ · (R₁.join p)) =
      a.exclusions.any (Exclusion.covers R₂ · (R₂.join p)) := by
    rw [Bool.eq_iff_iff, List.any_eq_true, List.any_eq_true]
    refine exists_congr fun e => and_congr_right fun he => ?_
    rw [Exclusion.covers_eq, Exclusion.covers_eq, hexclusions e he p hp,
      hp.relativeTo_join habsolute₁, hp.relativeTo_join habsolute₂]
  unfold selects
  rw [hp.hasExtension_join habsolute₁, hp.hasExtension_join habsolute₂, hcovers]

/-- **Where a project lives makes no difference, unless an exclusion tells one.**  The runs have the same
report, or fail at the same file with the same cause. -/
theorem run_placed (hplaced₁ : Placed tree₁ R₁ node) (hplaced₂ : Placed tree₂ R₂ node)
    (hnode : node.Named) (hdirectory : node.isDirectory = true)
    (hexclusions : ∀ e ∈ a.exclusions, Exclusion.SameAt e R₁ R₂) :
    ∃ outcome : Except ParseError Report,
      (a.rootedAt R₁).run tree₁ = outcome.mapError (fun e => .parse (e.under R₁)) ∧
      (a.rootedAt R₂).run tree₂ = outcome.mapError (fun e => .parse (e.under R₂)) ∧
      (a.strict = false → ∃ report, outcome = .ok report) := by
  have hselected : (filesOf a.settings.respectGitignore node).filter
        (fun f => a.selects R₁ (R₁.join f.path)) =
      (filesOf a.settings.respectGitignore node).filter
        fun f => a.selects R₂ (R₂.join f.path) :=
    List.filter_congr fun f hf => selects_eq hexclusions hplaced₁.absolute hplaced₂.absolute
      (Discovery.filesOf_inside hnode hdirectory f hf)
  have hsame : a.runAlone (fun p => a.selects R₁ (R₁.join p)) node =
      a.runAlone (fun p => a.selects R₂ (R₂.join p)) node := by
    unfold runAlone
    rw [hselected]
  refine ⟨_, run_of_placed hplaced₁ hnode hdirectory, ?_, ?_⟩
  · rw [run_of_placed hplaced₂ hnode hdirectory, hsame]
  · intro hlenient
    unfold runAlone
    rw [hlenient]
    exact ⟨_, rfl⟩

/-- The default exclusions tell no difference between two roots that are in no directory of packages, one
of them with a dot and two slashes in its path. -/
theorem run_placed_default :
    ∃ (exclusions : List Glob) (tree₁ tree₂ node : FileTree) (R₁ R₂ : FilePath) (report : Report),
      ({} : Config).analyzer.exclude.mapM Glob.ofPattern = .ok exclusions ∧
      Placed tree₁ R₁ node ∧ Placed tree₂ R₂ node ∧ R₁.components ≠ R₂.components ∧
      let a : Analyzer :=
        { root := R₁, rules := .ofConfig (Config.sniffs {}) {}, exclusions,
          settings := ({} : Config).analyzer, strict := false }
      (a.rootedAt R₁).run tree₁ = .ok report ∧ (a.rootedAt R₂).run tree₂ = .ok report := by
  let file (name text : String) : Text × FileTree :=
    (name.toList, .file (Utf8.encode text.toList))
  let node : FileTree := .directory
    [file ".gitignore" "*.gen.php", ("src".toList, .directory [file "a.php" "<?php $a = [1];"]),
      ("vendor".toList, .directory [file "b.php" "<?php "])]
  let tree₁ : FileTree := .directory [("t".toList, .directory [("w".toList, node)])]
  let tree₂ : FileTree := .directory [("home".toList, .directory [("me".toList, node)])]
  let vendor : Glob := Exclusion.everyDirectory "vendor".toList
  let modules : Glob := Exclusion.everyDirectory "node_modules".toList
  let a : Analyzer :=
    { root := .ofString "/t/w", rules := .ofConfig (Config.sniffs {}) {},
      exclusions := [vendor, modules], settings := ({} : Config).analyzer, strict := false }
  have hplaced₁ : Placed tree₁ (.ofString "/t/w") node :=
    ⟨rfl, ["t".toList, "w".toList], by decide +kernel, rfl, by decide +kernel⟩
  have hplaced₂ : Placed tree₂ (.ofString "/home/.//me/") node :=
    ⟨rfl, ["home".toList, "me".toList], by decide +kernel, rfl, by decide +kernel⟩
  have hentry (name text : String) : (file name text).2.Named := .file _
  have hnode : node.Named := by
    refine .directory (by decide +kernel) (List.forall_mem_cons.2 ⟨hentry _ _, ?_⟩)
    refine List.forall_mem_cons.2 ⟨.directory (by decide +kernel) ?_, ?_⟩
    · exact List.forall_mem_singleton.2 (hentry _ _)
    · exact List.forall_mem_singleton.2
        (.directory (by decide +kernel) (List.forall_mem_singleton.2 (hentry _ _)))
  have hexclusions : ∀ e ∈ a.exclusions,
      Exclusion.SameAt e (.ofString "/t/w") (.ofString "/home/.//me/") := by
    refine List.forall_mem_cons.2 ⟨?_, List.forall_mem_singleton.2 ?_⟩
    all_goals
      exact Exclusion.sameAt_of_leads
        (Exclusion.leads_everyDirectory (by decide +kernel) (by decide +kernel)) rfl rfl
        (by decide +kernel) (by decide +kernel)
  obtain ⟨outcome, hrun₁, hrun₂, hlenient⟩ := run_placed (a := a) hplaced₁ hplaced₂ hnode rfl hexclusions
  obtain ⟨report, rfl⟩ := hlenient rfl
  exact ⟨[vendor, modules], tree₁, tree₂, node, _, _, report, by decide +kernel, hplaced₁, hplaced₂,
    by decide +kernel, hrun₁, hrun₂⟩

/-- Below a directory called `vendor` no file is checked, and elsewhere the only file there is. -/
theorem run_vendored :
    ∃ (exclusions : List Glob) (tree₁ tree₂ node : FileTree) (R₁ R₂ : FilePath)
      (report₁ report₂ : Report),
      ({} : Config).analyzer.exclude.mapM Glob.ofPattern = .ok exclusions ∧
      Placed tree₁ R₁ node ∧ Placed tree₂ R₂ node ∧ node.Named ∧ node.isDirectory = true ∧
      let a : Analyzer :=
        { root := R₁, rules := .ofConfig (Config.sniffs {}) {}, exclusions,
          settings := ({} : Config).analyzer, strict := false }
      (a.rootedAt R₁).run tree₁ = .ok report₁ ∧ report₁.filesChecked = 0 ∧
      (a.rootedAt R₂).run tree₂ = .ok report₂ ∧ report₂.filesChecked = 1 := by
  let node : FileTree := .directory [("a.php".toList, .file (Utf8.encode "<?php\n".toList))]
  let tree₁ : FileTree := .directory [("vendor".toList, .directory [("app".toList, node)])]
  let tree₂ : FileTree := .directory [("app".toList, node)]
  let a : Analyzer :=
    { root := .ofString "/vendor/app", rules := .ofConfig (Config.sniffs {}) {},
      exclusions := ["vendor", "node_modules"].map fun name => Exclusion.everyDirectory name.toList
      settings := ({} : Config).analyzer, strict := false }
  let found : SourceFile := ⟨.ofString "/app/a.php", Utf8.encode "<?php\n".toList⟩
  have hplaced₁ : Placed tree₁ (.ofString "/vendor/app") node :=
    ⟨rfl, ["vendor".toList, "app".toList], by decide +kernel, rfl, by decide +kernel⟩
  have hplaced₂ : Placed tree₂ (.ofString "/app") node :=
    ⟨rfl, ["app".toList], by decide +kernel, rfl, by decide +kernel⟩
  have hnode : node.Named :=
    .directory (by decide +kernel) (List.forall_mem_singleton.2 (.file _))
  have hfiles₁ : (a.rootedAt (.ofString "/vendor/app")).files tree₁ = .ok [] :=
    files_of_visibleFiles (Discovery.visibleFiles_placed hplaced₁ hnode rfl) (by decide +kernel)
      .nil
  have hfiles₂ : (a.rootedAt (.ofString "/app")).files tree₂ = .ok [found] :=
    files_of_visibleFiles (Discovery.visibleFiles_placed hplaced₂ hnode rfl) (by decide +kernel)
      (List.pairwise_singleton _ _)
  exact ⟨_, tree₁, tree₂, node, _, _, _, _, by decide +kernel, hplaced₁, hplaced₂, hnode, rfl,
    run_lenient hfiles₁, rfl, run_lenient hfiles₂, by decide +kernel⟩

end Analyzer

end PhpLint

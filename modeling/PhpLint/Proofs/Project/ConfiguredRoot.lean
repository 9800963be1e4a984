import PhpLint.CommandLine.Program
import PhpLint.Proofs.Path.Lookup
import PhpLint.Proofs.Project.Placement

/-!
# The root of a configuration and the path of a run

A configuration names a root, and an analyzer that is built without another one starts there.  A check
that is given no path does not: its path has a default, which takes the place of the root.  So the run
is that of the configured analyzer moved to the current directory, whatever the configuration says.

The two still agree where the configured root leads to the current directory, under whatever spelling,
unless an exclusion tells the spellings apart (`run_without_path`).  For a walk sees of its root the
names that it leads to, and puts the spelling in front of what it finds (`visibleFiles_of_names?`).
Where the root leads elsewhere they do not (`run_without_path_elsewhere`).
-/

namespace PhpLint

open FilePath (Inside)

/-! ## Files by the names that lead to their root -/

/-- Below a tree whose entries have names, all entries have names. -/
theorem FileTree.Named.below? {t node : FileTree} {names : List Text} (h : t.Named)
    (hbelow : t.below? names = some node) : node.Named := by
  induction names generalizing t with
  | nil =>
    cases hbelow
    exact h
  | cons name names ih =>
    obtain ⟨child, hchild, hrest⟩ := Option.bind_eq_some_iff.1 hbelow
    cases h with
    | file bytes => cases hchild
    | directory hnames hnodes =>
      obtain ⟨before, after, rfl, -⟩ := List.lookup_eq_some_iff.1 hchild
      have hmem : (name, child) ∈ before ++ (name, child) :: after := by simp
      exact ih (hnodes (name, child) hmem) hrest

namespace Discovery

variable {heeded : Bool} {tree : FileTree} {R : FilePath} {names : List Text}
  {entries : List (Text × FileTree)} {found : List SourceFile}

/-- The files below the directory that names lead to, with their paths from there. -/
def filesFrom (heeded : Bool) (tree : FileTree) (names : List Text) :
    Except WalkError (List SourceFile) :=
  match tree.below? names with
  | some (.directory entries) =>
    let outer := outerFiles heeded tree names
    if outer.any (·.1.isMalformed) then .error .malformed
    else .ok (filesAt heeded (outer.map fun (f, trail) => .ofFiles f trail) ⟨[]⟩ (.directory entries))
  | _ => .error .missing

/-- The files below a root are those below the names that it leads to, with the root in front. -/
theorem visibleFiles_of_names? (hnames : tree.names? R = some names)
    (hbelow : tree.below? names = some (.directory entries))
    (hnamed : (FileTree.directory entries).Named) :
    visibleFiles heeded tree R = (filesFrom heeded tree names).map (List.map (·.under R)) := by
  cases hnamed with
  | directory hentries hnodes =>
    have hwalk (levels : List Ignore.Level) :
        filesAt heeded levels R (.directory entries) =
          (filesAt heeded levels ⟨[]⟩ (.directory entries)).map (·.under R) := by
      have hjoin (inner : List Ignore.Level) : filesIn heeded (inner ++ []) R entries =
          (filesIn heeded inner ⟨[]⟩ entries).map (·.under R) := by
        refine filesIn_join (by simp) ?_ leads_nil hentries fun e he => filesAt_join (hnodes e he)
        intro name hname
        rw [FilePath.nil_join (FilePath.isBody_of_isName hname)]
      simp only [List.append_nil] at hjoin
      rw [filesAt, filesAt]
      exact hjoin _
    unfold visibleFiles filesFrom
    simp only [hnames, hbelow]
    split
    case isTrue => rfl
    case isFalse => exact congrArg Except.ok (hwalk _)

/-- The files are written the way that a walk below a directory writes them. -/
theorem filesFrom_inside (hbelow : tree.below? names = some (.directory entries))
    (hnamed : (FileTree.directory entries).Named) (hfound : filesFrom heeded tree names = .ok found) :
    ∀ f ∈ found, Inside f.path := by
  cases hnamed with
  | directory hentries hnodes =>
    simp only [filesFrom, hbelow] at hfound
    split at hfound
    · cases hfound
    · cases hfound
      rw [filesAt]
      exact filesIn_inside leads_nil hentries fun e he => filesAt_inside (hnodes e he)

end Discovery

namespace Analyzer

variable {a : Analyzer} {tree : FileTree} {R R₁ R₂ : FilePath} {names : List Text}
  {entries : List (Text × FileTree)} {found : List SourceFile}

/-- A root that leads nowhere ends the run. -/
theorem run_of_names?_eq_none (h : tree.names? R = none) :
    (a.rootedAt R).files tree = .error .missing ∧
      (a.rootedAt R).run tree = .error (.walk .missing) := by
  have hfiles : (a.rootedAt R).files tree = .error .missing := by
    unfold files Discovery.visibleFiles
    simp only [rootedAt, h]
    rfl
  refine ⟨hfiles, ?_⟩
  unfold run
  rw [hfiles]

/-- An error of the walk ends the run. -/
theorem run_of_filesFrom_eq_error {e : Discovery.WalkError} (hnames : tree.names? R = some names)
    (hbelow : tree.below? names = some (.directory entries))
    (hnamed : (FileTree.directory entries).Named)
    (hfound : Discovery.filesFrom a.settings.respectGitignore tree names = .error e) :
    (a.rootedAt R).files tree = .error e ∧ (a.rootedAt R).run tree = .error (.walk e) := by
  have hvisible : Discovery.visibleFiles (a.rootedAt R).settings.respectGitignore tree
      (a.rootedAt R).root = .error e := by
    have hwalk : Discovery.visibleFiles a.settings.respectGitignore tree R = _ :=
      Discovery.visibleFiles_of_names? hnames hbelow hnamed
    rw [hfound] at hwalk
    exact hwalk
  have hfiles : (a.rootedAt R).files tree = .error e := by
    unfold files
    rw [hvisible]
    rfl
  refine ⟨hfiles, ?_⟩
  unfold run
  rw [hfiles]

/-- What is selected of the files below a directory, in order. -/
def selectedFrom (a : Analyzer) (R : FilePath) (found : List SourceFile) : List SourceFile :=
  (found.filter fun f => a.selects R (R.join f.path)).mergeSort
    fun f g => (f.path.order g.path).isLE

/-- Two roots select the same files unless an exclusion tells a difference. -/
theorem selectedFrom_eq (hR₁ : R₁.isAbsolute = true) (hR₂ : R₂.isAbsolute = true)
    (hexclusions : ∀ e ∈ a.exclusions, Exclusion.SameAt e R₁ R₂)
    (hinside : ∀ f ∈ found, Inside f.path) :
    a.selectedFrom R₁ found = a.selectedFrom R₂ found := by
  have hfilter : (found.filter fun f => a.selects R₁ (R₁.join f.path)) =
      found.filter fun f => a.selects R₂ (R₂.join f.path) := by
    apply List.filter_congr
    intro f hf
    exact selects_eq hexclusions hR₁ hR₂ (hinside f hf)
  unfold selectedFrom
  rw [hfilter]

/-- The analyzers at two roots have the same files below their roots, and the same outcome. -/
structure SameRun (a : Analyzer) (tree : FileTree) (R₁ R₂ : FilePath) : Prop where
  files : ∃ found : Except Discovery.WalkError (List SourceFile),
    (a.rootedAt R₁).files tree = found.map (List.map (·.under R₁)) ∧
    (a.rootedAt R₂).files tree = found.map (List.map (·.under R₂))
  run : a.strict = false → (a.rootedAt R₁).run tree = (a.rootedAt R₂).run tree

/-- **Roots that lead to one directory give one outcome**, unless an exclusion tells them apart. -/
theorem sameRun_of_names? (htree : tree.Named) (hR₁ : R₁.isAbsolute = true)
    (hR₂ : R₂.isAbsolute = true) (hsame : tree.names? R₁ = tree.names? R₂)
    (hdirectory : tree.hasFile R₁ = false)
    (hexclusions : ∀ e ∈ a.exclusions, Exclusion.SameAt e R₁ R₂) : a.SameRun tree R₁ R₂ := by
  cases hnames : tree.names? R₁ with
  | none =>
    obtain ⟨hfiles₁, hrun₁⟩ := run_of_names?_eq_none (a := a) hnames
    obtain ⟨hfiles₂, hrun₂⟩ := run_of_names?_eq_none (a := a) (hsame ▸ hnames)
    exact ⟨⟨.error .missing, hfiles₁, hfiles₂⟩, fun _ => hrun₁.trans hrun₂.symm⟩
  | some names =>
    have hnames₂ : tree.names? R₂ = some names := hsame ▸ hnames
    obtain ⟨node, hbelow⟩ : ∃ node, tree.below? names = some node := by
      obtain ⟨-, -, node, hbelow, -⟩ := FileTree.names?_eq_some_iff.1 hnames
      exact ⟨node, hbelow⟩
    cases node with
    | file bytes => simp [FileTree.hasFile, FileTree.at?, hnames, hbelow, FileTree.isFile,
        FileTree.isDirectory] at hdirectory
    | directory entries =>
      have hnamed : (FileTree.directory entries).Named := htree.below? hbelow
      cases hfound : Discovery.filesFrom a.settings.respectGitignore tree names with
      | error e =>
        obtain ⟨hfiles₁, hrun₁⟩ := run_of_filesFrom_eq_error hnames hbelow hnamed hfound
        obtain ⟨hfiles₂, hrun₂⟩ := run_of_filesFrom_eq_error hnames₂ hbelow hnamed hfound
        exact ⟨⟨.error e, hfiles₁, hfiles₂⟩, fun _ => hrun₁.trans hrun₂.symm⟩
      | ok found =>
        have hinside := Discovery.filesFrom_inside hbelow hnamed hfound
        have hvisible {R : FilePath} (hR : tree.names? R = some names) :
            Discovery.visibleFiles a.settings.respectGitignore tree R =
              .ok (found.map (·.under R)) := by
          rw [Discovery.visibleFiles_of_names? hR hbelow hnamed, hfound]
          rfl
        have hbase₁ : (a.rootedAt R₁).base tree = R₁ := base_of_isDirectory hnames hbelow rfl
        have hbase₂ : (a.rootedAt R₂).base tree = R₂ := base_of_isDirectory hnames₂ hbelow rfl
        have hselected := selectedFrom_eq hR₁ hR₂ hexclusions hinside
        constructor
        · refine ⟨.ok (a.selectedFrom R₁ found), ?_, ?_⟩
          · exact files_of_visible hR₁ hbase₁ (hvisible hnames) hinside
          · rw [hselected]
            exact files_of_visible hR₂ hbase₂ (hvisible hnames₂) hinside
        · intro hlenient
          have houtcome : a.runOver (fun p => a.selects R₁ (R₁.join p)) found =
              a.runOver (fun p => a.selects R₂ (R₂.join p)) found := by
            have hread := congrArg (ReadFile.ofFiles a.strict) hselected
            exact congrArg (Except.map (check a.rules ⟨[]⟩)) hread
          rw [run_of_visible hR₁ hbase₁ (hvisible hnames) hinside,
            run_of_visible hR₂ hbase₂ (hvisible hnames₂) hinside, houtcome]
          unfold runOver
          rw [hlenient]
          rfl

/-- Another root moves the analyzer that the configuration alone makes. -/
theorem build_eq_map (current : FilePath) (root : Option FilePath) (sniffs : List Sniff)
    (exclusions : List Text) (config : Config) (strict : Bool) :
    build current root sniffs exclusions config strict =
      (build current none sniffs exclusions config strict).map
        (·.rootedAt (current.join (root.getD config.analyzer.root))) := by
  unfold build
  cases (exclusions ++ config.analyzer.exclude).mapM Glob.ofPattern with
  | error e => rfl
  | ok globs => rfl

end Analyzer

/-! ## The current directory -/

/-- What is joined to an absolute path is absolute. -/
theorem FilePath.isAbsolute_join {p : FilePath} (hp : p.isAbsolute = true) (q : FilePath) :
    (p.join q).isAbsolute = true := by
  unfold join
  split
  · assumption
  · obtain ⟨t⟩ := p
    cases t with
    | nil => simp [isAbsolute] at hp
    | cons c t => split <;> exact hp

namespace CommandLine

variable {w : Workspace} {arguments : List Text} {before after : Given} {i : Invocation}
  {config : Config} {a : Analyzer}

/-- Where a check starts that is given no path. -/
def here (w : Workspace) : FilePath := w.current.join Invocation.defaultPath

/-- The path of the current directory can lead to a directory only. -/
theorem wantsDirectory_here (hcurrent : w.current.isAbsolute = true) :
    FileTree.wantsDirectory (here w) = true := by
  have hends : Text.endsWith ['/', '.'] (here w).text = true := by
    obtain ⟨body, htext, -⟩ := FilePath.components_of_isAbsolute hcurrent
    have hne : w.current.text ≠ [] := by simp [htext]
    rw [Text.endsWith, List.isSuffixOf_iff_suffix, here, FilePath.join_eq rfl]
    by_cases hlast : w.current.text.getLast? = some '/'
    · obtain ⟨front, hfront⟩ := List.getLast?_eq_some_iff.1 hlast
      exact ⟨front, by simp [FilePath.front, hfront, Invocation.defaultPath, FilePath.ofString]⟩
    · exact ⟨w.current.text, by
        simp [FilePath.front, hlast, hne, Invocation.defaultPath, FilePath.ofString]⟩
  simp [FileTree.wantsDirectory, hends]

/-- No file stands where a check without a path starts. -/
theorem hasFile_here (hcurrent : w.current.isAbsolute = true) : w.tree.hasFile (here w) = false := by
  unfold FileTree.hasFile FileTree.at?
  cases hnames : w.tree.names? (here w) with
  | none => rfl
  | some names =>
    obtain ⟨-, -, node, hbelow, hkind⟩ := FileTree.names?_eq_some_iff.1 hnames
    simp [hbelow, FileTree.isFile, hkind (wantsDirectory_here hcurrent)]

/-! ## The run and the library -/

/-- The analyzer that the library builds for what is given: it starts at the configured root. -/
def libraryAnalyzer (w : Workspace) (given : Given) (config : Config) : Except Glob.Error Analyzer :=
  Analyzer.build w.current none (chosenSniffs config given.sniffs) given.exclusions config false

/-- The outcome of a check, given that of its analysis. -/
def outcomeOf (config : Config) (format : OutputFormat) (source? : FilePath → Option Text) :
    Except AnalysisError Report → Outcome
  | .error _ => .failed "Analysis failed"
  | .ok report =>
    { status := if report.reaches config.threshold then 1 else 0
      output := report.shown format source? }

/-- The outcome of a check, given the analyzer that is built. -/
theorem check_eq {source : ConfigSource} (hload : source.load? w = some config) (path : FilePath)
    (format : OutputFormat) (filter : Option Text) (exclusions : List Text)
    (hbuild : Analyzer.build w.current (some path) (chosenSniffs config filter) exclusions config
      false = .ok a) :
    ∃ source?, check w source path format filter exclusions =
      outcomeOf config format source? (a.run w.tree) := by
  refine ⟨fun file => w.text? ((a.base w.tree).join file), ?_⟩
  simp only [check, hload, hbuild]
  cases a.run w.tree with
  | error e => rfl
  | ok report => rfl

/-- Arguments that give no path ask for a check of the current directory. -/
theorem command_of_ofArguments {fallback : Option Text}
    (hread : readProgram {} arguments = .ok (before, .check, after)) (hpath : after.path = none)
    (hask : Invocation.ofArguments fallback arguments = .ok i) :
    i.command = .check Invocation.defaultPath (after.format.getD .text) after.sniffs
      after.exclusions := by
  unfold Invocation.ofArguments at hask
  rw [hread] at hask
  simp only [bind, Except.bind] at hask
  split at hask
  · cases hask
  · cases hask
    simp [Invocation.commandOf, hpath]

/-- A run that is given no path checks the current directory under the configuration that is found
there. -/
theorem run_eq_check (hread : readProgram {} arguments = .ok (before, .check, after))
    (hpath : after.path = none)
    (hask : Invocation.ofArguments (w.lookup? Flag.configVariable) arguments = .ok i) :
    run w arguments =
      check w (ConfigSource.find w (ConfigSource.startOf w Invocation.defaultPath) i.config)
        Invocation.defaultPath (after.format.getD .text) after.sniffs after.exclusions := by
  unfold run
  simp only [hask, Invocation.run, command_of_ofArguments hread hpath hask]

/-- The root of the analyzer leads to the current directory, and no exclusion tells how it is written. -/
structure StartsHere (w : Workspace) (a : Analyzer) : Prop where
  names : w.tree.names? (here w) = w.tree.names? a.root
  exclusions : ∀ e ∈ a.exclusions, Exclusion.SameAt e (here w) a.root

/-- What a run that is given no path has to do with the analysis that the library makes of the same
configuration. -/
structure LikeLibrary (w : Workspace) (arguments : List Text) (given : Given) (config : Config) :
    Prop where
  /-- Where the library cannot build an analyzer, the run fails. -/
  unbuilt : ∀ e, libraryAnalyzer w given config = .error e →
    run w arguments = .failed "Failed to build analyzer"
  /-- The configured root does not count: the run is that of the library's analyzer, moved. -/
  moved : ∀ a, libraryAnalyzer w given config = .ok a →
    ∃ source?, run w arguments =
      outcomeOf config (given.format.getD .text) source? ((a.rootedAt (here w)).run w.tree)
  /-- Where the configured root leads to the current directory, the run looks at the files that the
  library looks at and has the outcome that the library has. -/
  agrees : ∀ a, libraryAnalyzer w given config = .ok a → StartsHere w a →
    (∃ found : Except Discovery.WalkError (List SourceFile),
      (a.rootedAt (here w)).files w.tree = found.map (List.map (·.under (here w))) ∧
      a.files w.tree = found.map (List.map (·.under a.root))) ∧
    ∃ source?, run w arguments =
      outcomeOf config (given.format.getD .text) source? (a.run w.tree)

/-- **A check without a path** looks at the current directory, and not at the root of the
configuration; it agrees with the library where that root leads to the current directory. -/
theorem run_without_path (hread : readProgram {} arguments = .ok (before, .check, after))
    (hpath : after.path = none)
    (hask : Invocation.ofArguments (w.lookup? Flag.configVariable) arguments = .ok i)
    (hload : (ConfigSource.find w (ConfigSource.startOf w Invocation.defaultPath) i.config).load? w =
      some config)
    (hcurrent : w.current.isAbsolute = true) (htree : w.tree.Named) :
    LikeLibrary w arguments after config := by
  have hrun := run_eq_check hread hpath hask
  have hbuild := Analyzer.build_eq_map w.current (some Invocation.defaultPath)
    (chosenSniffs config after.sniffs) after.exclusions config false
  have hmoved {a : Analyzer} (ha : libraryAnalyzer w after config = .ok a) :
      ∃ source?, run w arguments =
        outcomeOf config (after.format.getD .text) source? ((a.rootedAt (here w)).run w.tree) := by
    rw [← libraryAnalyzer, ha] at hbuild
    rw [hrun]
    exact check_eq hload _ _ _ _ hbuild
  constructor
  case unbuilt =>
    intro e he
    rw [← libraryAnalyzer, he] at hbuild
    rw [hrun]
    simp only [check, hload, hbuild]
    rfl
  case moved =>
    intro a ha
    exact hmoved ha
  case agrees =>
    intro a ha hstarts
    obtain ⟨globs, -, hbuilt⟩ := Analyzer.build_eq_ok_iff.1 ha
    have hroot : a.root.isAbsolute = true := by
      rw [hbuilt]
      exact FilePath.isAbsolute_join hcurrent _
    have hlenient : a.strict = false := by rw [hbuilt]
    have hsame : a.SameRun w.tree (here w) a.root :=
      Analyzer.sameRun_of_names? htree (FilePath.isAbsolute_join hcurrent _) hroot hstarts.names
        (hasFile_here hcurrent) hstarts.exclusions
    refine ⟨hsame.files, ?_⟩
    obtain ⟨source?, houtcome⟩ := hmoved ha
    refine ⟨source?, houtcome.trans ?_⟩
    exact congrArg (outcomeOf config _ source?) (hsame.run hlenient)

/-- A configuration that names a root. -/
def rootConfig (root : Text) : Config :=
  { analyzer := { root := ⟨root⟩, exclude := ["**/vendor/**".toList] } }

/-- The text of the configuration. -/
def rootDocument (root : Text) : Text :=
  "[analyzer]\nroot = \"".toList ++ root ++ "\"\nexclude = [\"**/vendor/**\"]\n".toList

/-- A project under that configuration, seen from its directory: a file without a declaration, one with
it in a directory below, and another among the packages. -/
def rootProject (root : Text) : Workspace where
  tree := .directory [("p".toList, .directory
    [("a.php".toList, .file (Utf8.encode "<?php\n".toList)),
      ("php-standards.toml".toList, .file (Utf8.encode (rootDocument root))),
      ("src".toList, .directory
        [("b.php".toList, .file (Utf8.encode "<?php\ndeclare(strict_types=1);\n".toList))]),
      ("vendor".toList, .directory [("c.php".toList, .file (Utf8.encode "<?php\n".toList))])])]
  current := .ofString "/p"

/-- The analyzer that the library builds for the project. -/
def rootAnalyzer (root : Text) : Analyzer where
  root := ⟨"/p/".toList ++ root⟩
  rules := .ofConfig (chosenSniffs (rootConfig root) none) (rootConfig root)
  exclusions := [Exclusion.everyDirectory "vendor".toList]
  settings := (rootConfig root).analyzer
  strict := false

/-- What is written is the configuration. -/
theorem ofText?_rootDocument :
    Config.ofText? (rootDocument "src".toList) = some (rootConfig "src".toList) ∧
      Config.ofText? (rootDocument "src/..".toList) = some (rootConfig "src/..".toList) := by
  have hbelow : rootDocument "src".toList =
      "[analyzer]\nroot = \"src\"\nexclude = [\"**/vendor/**\"]\n".toList := by decide +kernel
  have hback : rootDocument "src/..".toList =
      "[analyzer]\nroot = \"src/..\"\nexclude = [\"**/vendor/**\"]\n".toList := by decide +kernel
  rw [hbelow, hback]
  constructor
  · decide +kernel
  · decide +kernel

/-- The configuration is found in the current directory. -/
theorem load_rootProject {root : Text}
    (hfind : ConfigSource.find (rootProject root)
      (ConfigSource.startOf (rootProject root) Invocation.defaultPath) none =
        .project (.ofString "/p/php-standards.toml"))
    (htext : (rootProject root).text? (.ofString "/p/php-standards.toml") = some (rootDocument root))
    (hconfig : Config.ofText? (rootDocument root) = some (rootConfig root)) :
    (ConfigSource.find (rootProject root)
      (ConfigSource.startOf (rootProject root) Invocation.defaultPath) none).load? (rootProject root) =
        some (rootConfig root) := by
  rw [hfind, ConfigSource.load?, ConfigSource.path?]
  simp only [htext, Option.bind_some]
  exact hconfig

/-- All entries of the project have names. -/
theorem named_rootProject (root : Text) : (rootProject root).tree.Named := by
  have hnames : ∀ name ∈ ["p".toList, "a.php".toList, "php-standards.toml".toList, "src".toList,
      "b.php".toList, "vendor".toList, "c.php".toList], Component.IsName name := by
    decide +kernel
  simp only [List.forall_mem_cons] at hnames
  obtain ⟨hp, ha, htoml, hsrc, hb, hvendor, hc, -⟩ := hnames
  refine .directory (List.forall_mem_singleton.2 hp) (List.forall_mem_singleton.2 ?_)
  refine .directory ?_ ?_
  · simp only [List.forall_mem_cons]
    exact ⟨ha, htoml, hsrc, hvendor, by simp⟩
  · simp only [List.forall_mem_cons]
    refine ⟨.file _, .file _, ?_, ?_, by simp⟩
    · exact .directory (List.forall_mem_singleton.2 hb) (List.forall_mem_singleton.2 (.file _))
    · exact .directory (List.forall_mem_singleton.2 hc) (List.forall_mem_singleton.2 (.file _))

/-- The bare command asks for a check of the default path. -/
theorem ofArguments_check (root : Text) :
    readProgram {} ["check".toList] = .ok ({}, .check, {}) ∧
      Invocation.ofArguments ((rootProject root).lookup? Flag.configVariable) ["check".toList] =
        .ok ⟨false, none, .check (.ofString ".") .text none []⟩ := by
  have hnone : (rootProject root).lookup? Flag.configVariable = none := rfl
  rw [hnone]
  decide +kernel

/-- The configured root is the current directory under another name. -/
theorem run_without_path_respelled :
    ∃ w arguments given config a report,
      libraryAnalyzer w given config = .ok a ∧ a.root ≠ here w ∧ StartsHere w a ∧
      a.run w.tree = .ok report ∧ report.filesChecked = 2 ∧
      LikeLibrary w arguments given config := by
  let w := rootProject "src/..".toList
  let a := rootAnalyzer "src/..".toList
  let read (path : String) (text : Text) : SourceFile := ⟨.ofString path, Utf8.encode text⟩
  let files := [read "/p/src/../a.php" "<?php\n".toList,
    read "/p/src/../src/b.php" "<?php\ndeclare(strict_types=1);\n".toList]
  obtain ⟨hread, hask⟩ := ofArguments_check "src/..".toList
  have hload : (ConfigSource.find w (ConfigSource.startOf w Invocation.defaultPath) none).load? w =
      some (rootConfig "src/..".toList) :=
    load_rootProject (by decide +kernel) (by decide +kernel) ofText?_rootDocument.2
  have hbuild : libraryAnalyzer w {} (rootConfig "src/..".toList) = .ok a :=
    Analyzer.build_eq_ok_iff.2 ⟨a.exclusions, by decide +kernel, rfl⟩
  have hstarts : StartsHere w a := by
    refine ⟨by decide +kernel, List.forall_mem_singleton.2 ?_⟩
    exact Exclusion.sameAt_of_leads
      (Exclusion.leads_everyDirectory (by decide +kernel) (by decide +kernel)) rfl rfl
      (by decide +kernel) (by decide +kernel)
  have hvisible : Discovery.visibleFiles true w.tree a.root =
      .ok [read "/p/src/../a.php" "<?php\n".toList,
        read "/p/src/../php-standards.toml" (rootDocument "src/..".toList),
        read "/p/src/../src/b.php" "<?php\ndeclare(strict_types=1);\n".toList,
        read "/p/src/../vendor/c.php" "<?php\n".toList] := by
    decide +kernel
  have hfiles : a.files w.tree = .ok files :=
    Analyzer.files_of_visibleFiles hvisible (by decide +kernel) (by decide +kernel)
  have hlike : LikeLibrary w ["check".toList] {} (rootConfig "src/..".toList) :=
    run_without_path hread rfl hask hload rfl (named_rootProject "src/..".toList)
  exact ⟨w, _, _, _, a, _, hbuild, by decide +kernel, hstarts, Analyzer.run_lenient hfiles,
    by decide +kernel, hlike⟩

/-- The configured root is a directory below: the library finds nothing wrong there, while the run reports
a file next to it. -/
theorem run_without_path_elsewhere :
    ∃ w arguments given config a ours theirs source?,
      readProgram {} arguments = .ok ({}, .check, given) ∧ given.path = none ∧
      (ConfigSource.find w (ConfigSource.startOf w Invocation.defaultPath) none).load? w =
        some config ∧
      libraryAnalyzer w given config = .ok a ∧
      a.run w.tree = .ok theirs ∧ theirs.filesChecked = 1 ∧ theirs.violations = [] ∧
      run w arguments = outcomeOf config .text source? (.ok ours) ∧ ours.filesChecked = 2 ∧
      ours.violations.map (fun v => (v.location.file.text, v.qualifiedCode)) =
        [("a.php".toList, "PS001.MissingDeclaration")] ∧
      (run w arguments).status = 1 := by
  let w := rootProject "src".toList
  let a := rootAnalyzer "src".toList
  let read (path : String) (text : Text) : SourceFile := ⟨.ofString path, Utf8.encode text⟩
  obtain ⟨hread, hask⟩ := ofArguments_check "src".toList
  have hload : (ConfigSource.find w (ConfigSource.startOf w Invocation.defaultPath) none).load? w =
      some (rootConfig "src".toList) :=
    load_rootProject (by decide +kernel) (by decide +kernel) ofText?_rootDocument.1
  have hbuild : libraryAnalyzer w {} (rootConfig "src".toList) = .ok a :=
    Analyzer.build_eq_ok_iff.2 ⟨a.exclusions, by decide +kernel, rfl⟩
  have htheirs : a.files w.tree =
      .ok [read "/p/src/b.php" "<?php\ndeclare(strict_types=1);\n".toList] := by
    have hvisible : Discovery.visibleFiles true w.tree a.root =
        .ok [read "/p/src/b.php" "<?php\ndeclare(strict_types=1);\n".toList] := by
      decide +kernel
    exact Analyzer.files_of_visibleFiles hvisible (by decide +kernel) (List.pairwise_singleton _ _)
  have hours : (a.rootedAt (here w)).files w.tree =
      .ok [read "/p/./a.php" "<?php\n".toList,
        read "/p/./src/b.php" "<?php\ndeclare(strict_types=1);\n".toList] := by
    have hvisible : Discovery.visibleFiles true w.tree (here w) =
        .ok [read "/p/./a.php" "<?php\n".toList, read "/p/./php-standards.toml" (rootDocument "src".toList),
          read "/p/./src/b.php" "<?php\ndeclare(strict_types=1);\n".toList,
          read "/p/./vendor/c.php" "<?php\n".toList] := by
      decide +kernel
    exact Analyzer.files_of_visibleFiles hvisible (by decide +kernel) (by decide +kernel)
  have hmoved : Analyzer.build w.current (some Invocation.defaultPath)
      (chosenSniffs (rootConfig "src".toList) none) [] (rootConfig "src".toList) false =
        .ok (a.rootedAt (here w)) := by
    rw [Analyzer.build_eq_map, show Analyzer.build w.current none _ _ _ _ = _ from hbuild]
    rfl
  obtain ⟨source?, houtcome⟩ := check_eq hload Invocation.defaultPath .text none [] hmoved
  have hfound := Analyzer.run_lenient hours
  have hrun := (run_eq_check hread rfl hask).trans
    (houtcome.trans (congrArg (outcomeOf (rootConfig "src".toList) .text source?) hfound))
  refine ⟨w, _, _, _, a, _, _, source?, hread, rfl, hload, hbuild, Analyzer.run_lenient htheirs,
    by decide +kernel, by decide +kernel, hrun, by decide +kernel, by decide +kernel, ?_⟩
  rw [hrun]
  exact if_pos (by decide +kernel)

end CommandLine

end PhpLint

import PhpLint.Discovery
import PhpLint.Report
import PhpLint.Ruleset

/-!
# Runs over a project

A run lists the files below its root, reads all of them, collects their declarations in one symbol
table and then checks every file against that table.  A file that is no source text has no part in
it, and bytes that are no text are replaced; a strict run ends at the first such file instead.
-/

namespace PhpLint

/-- A file that is source text. -/
structure ReadFile where
  path : FilePath
  source : Text
  stream : TokenStream

namespace ReadFile

/-- The file as source text, bytes that are no text replaced. -/
def ofFile (f : SourceFile) : Except ParseError ReadFile :=
  let source := Utf8.decodeLossy f.bytes
  match TokenStream.ofSource source with
  | .ok stream => .ok ⟨f.path, source, stream⟩
  | .error e => .error ⟨f.path, e.message⟩

/-- The file as source text, all of whose bytes have to be text. -/
def ofFileStrict (f : SourceFile) : Except ParseError ReadFile :=
  match Utf8.decode f.bytes with
  | .ok _ => ofFile f
  | .error fault => .error ⟨f.path, fault.message⟩

/-- The files that are source text; in a strict run all of them have to be. -/
def ofFiles (strict : Bool) (files : List SourceFile) : Except ParseError (List ReadFile) :=
  if strict then files.mapM ofFileStrict
  else .ok (files.filterMap fun f => (ofFile f).toOption)

end ReadFile

/-- What is checked, and by which rules. -/
structure Analyzer where
  /-- The file or directory to check, as an absolute path. -/
  root : FilePath
  rules : Ruleset
  exclusions : List Glob
  settings : AnalyzerConfig
  strict : Bool

/-- Why a run has no outcome. -/
inductive AnalysisError
  | walk (e : Discovery.WalkError)
  | parse (e : ParseError)

namespace Analyzer

/-- The analyzer with some checks under a configuration.  The root of the configuration counts when
no other one is given, and exclusions that are given come before those of the configuration. -/
def build (current : FilePath) (root : Option FilePath) (sniffs : List Sniff)
    (exclusions : List Text) (config : Config) (strict : Bool) : Except Glob.Error Analyzer := do
  let exclusions ← (exclusions ++ config.analyzer.exclude).mapM Glob.ofPattern
  return {
    root := current.join (root.getD config.analyzer.root)
    rules := .ofConfig sniffs config
    exclusions
    settings := config.analyzer
    strict }

/-- The directory that reports start their paths at: the root, or what contains a root that is a
file. -/
def base (a : Analyzer) (tree : FileTree) : FilePath :=
  if tree.hasFile a.root then a.root.parent?.getD a.root else a.root

/-- The file is one to check. -/
def selects (a : Analyzer) (base : FilePath) (p : FilePath) : Bool :=
  p.hasExtension a.settings.extensions && !a.exclusions.any (Exclusion.covers base · p)

/-- The files to check, in order. -/
def files (a : Analyzer) (tree : FileTree) : Except Discovery.WalkError (List SourceFile) := do
  let visible ← Discovery.visibleFiles a.settings.respectGitignore tree a.root
  let selected := visible.filter fun f => a.selects (a.base tree) f.path
  return selected.mergeSort fun f g => (f.path.order g.path).isLE

/-- The outcome of checking some files together. -/
def check (rules : Ruleset) (base : FilePath) (files : List ReadFile) : Report :=
  let symbols := SymbolTable.ofStreams (files.map (·.stream))
  let report : Report :=
    { violations := files.flatMap fun f => rules.check (.under base f.path f.source f.stream symbols)
      filesChecked := files.length }
  report.sorted

/-- The outcome of a run. -/
def run (a : Analyzer) (tree : FileTree) : Except AnalysisError Report :=
  match a.files tree with
  | .error e => .error (.walk e)
  | .ok files =>
    match ReadFile.ofFiles a.strict files with
    | .error e => .error (.parse e)
    | .ok sources => .ok (check a.rules (a.base tree) sources)

end Analyzer

end PhpLint

import PhpLint.CommandLine.Program

/-!
# What a run looks at

The places on the disk that can matter to a run: the target of the command with all that is below it,
the files for configurations and the ignore files around the target, and the files that are asked for
by name.  A run sees no other part of the disk.
-/

namespace PhpLint

/-- The names that lead from the root along each beginning of a path; a parent component takes one
name back. -/
def FilePath.trails (p : FilePath) : List (List Text) :=
  (p.components.foldl (fun (trails, names) component =>
    let next := match component with
      | .root => []
      | .current => names
      | .parent => names.dropLast
      | .name name => names ++ [name]
    (trails ++ [next], next)) (([], []) : List (List Text) × List Text)).1

namespace CommandLine

/-- Places on the disk. -/
structure Footprint where
  /-- Places that matter with all that is below them. -/
  trees : List FilePath := []
  /-- Files that matter. -/
  files : List FilePath := []
  deriving DecidableEq, Repr

/-- The files that matter in a directory around a target. -/
def namesAround : List String :=
  ConfigSource.projectNames ++ [".ignore", ".gitignore", ".git/info/exclude"]

/-- The files that matter around a path. -/
def filesAround (p : FilePath) : List FilePath :=
  p.trails.flatMap fun names =>
    namesAround.map fun name => (FilePath.ofNames names).join (.ofString name)

/-- The files of the user that matter. -/
def userFiles (w : Workspace) : List FilePath :=
  ((ConfigSource.sharedDirectory? w).map fun d => d.join (.ofString "config.toml")).toList

/-- The places that matter to a command. -/
def Command.footprint (w : Workspace) : Command → Footprint
  | .check path _ _ _ => ⟨[path], filesAround (w.current.join path) ++ userFiles w⟩
  | .listExtensions path => ⟨[], path :: filesAround (w.current.join path) ++ userFiles w⟩
  | .init _ => ⟨[], [.ofString configName]⟩
  | .listSniffs => {}

/-- The places that matter to a run, as absolute paths. -/
def footprint (w : Workspace) (arguments : List Text) : Footprint :=
  match Invocation.ofArguments (w.lookup? Flag.configVariable) arguments with
  | .error _ => {}
  | .ok i =>
    let places := i.command.footprint w
    { trees := places.trees.map w.current.join
      files := (i.config.toList ++ places.files ++ [FilePath.ofString "."]).map w.current.join }

end CommandLine

end PhpLint

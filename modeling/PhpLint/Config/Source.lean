import PhpLint.Config
import PhpLint.Workspace

/-!
# Where the configuration comes from

A file that is given comes first, whether or not it can be read.  Otherwise it is the configuration
of the project: of the directory of the target or of the nearest one around it, as far as the path of
the target tells.  Without one it is the user's own, and without that every setting has its default.

A target that leads somewhere is taken from the root; the path of any other one is taken as it is
written, so that only what it names is searched.
-/

namespace PhpLint

/-- Where a configuration comes from. -/
inductive ConfigSource
  /-- A file that was asked for. -/
  | given (p : FilePath)
  /-- A file of the project. -/
  | project (p : FilePath)
  /-- A file of the user, for all projects. -/
  | shared (p : FilePath)
  /-- No file. -/
  | absent
  deriving DecidableEq, Repr

namespace ConfigSource

/-- The file. -/
def path? : ConfigSource → Option FilePath
  | given p => some p
  | project p => some p
  | shared p => some p
  | absent => none

/-- The names of configuration files of a project; the first one of a directory counts. -/
def projectNames : List String :=
  ["php-standards.toml", ".php-standards.toml", "php-standards.toml.dist"]

/-- The first configuration file in a directory. -/
def inDirectory? (w : Workspace) (directory : FilePath) : Option FilePath :=
  (projectNames.map fun name => directory.join (.ofString name)).find? w.hasFile

/-- The configuration file of the nearest one of a path and those around it. -/
def nearest? (w : Workspace) (start : FilePath) : Option FilePath :=
  start.ancestors.findSome? (inDirectory? w)

/-- The directory of the user's configuration. -/
def sharedDirectory? (w : Workspace) : Option FilePath :=
  match w.lookup? "PHP_STANDARDS_CONFIG_DIR" with
  | some directory => some ⟨directory⟩
  | none => (w.lookup? "HOME").map fun home => FilePath.join ⟨home⟩ (.ofString ".php-standards")

/-- The user's configuration file. -/
def shared? (w : Workspace) : Option FilePath :=
  ((sharedDirectory? w).map fun directory => directory.join (.ofString "config.toml")).filter
    w.hasFile

/-- Where the configuration comes from when the search starts at a path. -/
def find (w : Workspace) (start : FilePath) (asked : Option FilePath) : ConfigSource :=
  match asked with
  | some p => given p
  | none =>
    match nearest? w ((w.resolve? start).getD start), shared? w with
    | some p, _ => project p
    | none, some p => shared p
    | none, none => absent

/-- Where the search starts for a target: at the target, or at what contains a file. -/
def startOf (w : Workspace) (target : FilePath) : FilePath :=
  if w.hasFile target then (target.parent?).getD (.ofString ".") else target

/-- The configuration, if it can be read. -/
def load? (w : Workspace) (source : ConfigSource) : Option Config :=
  match source.path? with
  | some p => (w.text? p).bind Config.ofText?
  | none => some {}

end ConfigSource

end PhpLint

import PhpLint.CommandLine.Footprint

/-!
# The program

Looks at the part of the disk that matters to the arguments, runs the command on what it saw, prints
the outcome and writes the file that the outcome holds.
-/

namespace PhpLint.CommandLine

/-- What lies at a path, its entries included if it is a directory that is looked into.  Links to
directories are not followed further down. -/
partial def load? (deep : Bool) (path : String) : IO (Option FileTree) := do
  try
    let place ← IO.FS.realPath path
    match (← place.metadata).type with
    | .file => return some (.file (← IO.FS.readBinFile place).toList)
    | .dir =>
      if !deep then return some FileTree.empty
      let mut entries := []
      for entry in ← place.readDir do
        let isLink := (← entry.path.symlinkMetadata).type == .symlink
        if !(isLink && (← entry.path.isDir)) then
          if let some node ← load? true entry.path.toString then
            entries := (entry.fileName.toList, node) :: entries
      return some (.directory entries)
    | _ => return none
  catch _ => return none

/-- A tree with what lies at a path, and with the directories on the way. -/
def see (deep : Bool) (tree : FileTree) (p : FilePath) : IO FileTree := do
  let mut tree := tree
  let trails := p.trails
  for names in trails do
    let last := some names == trails.getLast?
    if last && deep || !(tree.below? names).isSome then
      if let some node ← load? (last && deep) (FilePath.ofNames names).toString then
        tree := FileTree.insert node names tree
  return tree

/-- The variables that matter. -/
def variableNames : List String := [Flag.configVariable, "PHP_STANDARDS_CONFIG_DIR", "HOME"]

/-- The surroundings of a run with some arguments. -/
def surroundings (arguments : List Text) : IO Workspace := do
  let mut environment := []
  for name in variableNames do
    if let some value ← IO.getEnv name then environment := (name.toList, value.toList) :: environment
  let here : Workspace := ⟨FileTree.empty, .ofString (← IO.currentDir).toString, environment⟩
  let places := footprint here arguments
  let whole ← places.trees.foldlM (see true) here.tree
  return { here with tree := ← places.files.foldlM (see false) whole }

end PhpLint.CommandLine

/-- Runs the program with its arguments. -/
def main (args : List String) : IO UInt32 := do
  let arguments := args.map String.toList
  let outcome := PhpLint.CommandLine.run
    (← PhpLint.CommandLine.surroundings arguments) arguments
  IO.print outcome.output
  IO.eprint outcome.failure
  if let some (p, text) := outcome.written then IO.FS.writeFile p.toString text
  return outcome.status.toUInt32

import PhpLint.FilePath

/-!
# Trees of files

What a run sees of the disk: directories with their entries, down to the bytes of the files.  A path
is looked up component by component, starting at the root; a parent component leads back out of the
directory before it, and a path with a slash or a dot at its end leads to a directory only.
-/

namespace PhpLint

/-- A file, or a directory with its entries. -/
inductive FileTree
  | file (content : List UInt8)
  | directory (entries : List (Text × FileTree))
  deriving Inhabited

namespace FileTree

/-- A directory without entries. -/
def empty : FileTree := directory []

/-- The entries of a directory; a file has none. -/
def entries : FileTree → List (Text × FileTree)
  | directory es => es
  | file _ => []

/-- It is a directory. -/
def isDirectory : FileTree → Bool
  | directory _ => true
  | file _ => false

/-- It is a file. -/
def isFile (t : FileTree) : Bool := !t.isDirectory

/-- The bytes of a file. -/
def content? : FileTree → Option (List UInt8)
  | file content => some content
  | directory _ => none

/-- The entry of a name. -/
def child? (t : FileTree) (name : Text) : Option FileTree := t.entries.lookup name

/-- What a list of names leads to. -/
def below? (t : FileTree) : List Text → Option FileTree
  | [] => some t
  | name :: names => (t.child? name).bind (below? · names)

/-- The tree with something else where a list of names leads; directories on the way are made. -/
def insert (node : FileTree) : List Text → FileTree → FileTree
  | [], _ => node
  | name :: names, t =>
    let new := insert node names ((t.child? name).getD empty)
    directory (t.entries.filter (·.1 != name) ++ [(name, new)])

/-- The names that lead where one more component leads, from where other names lead. -/
def step? (t : FileTree) (names : List Text) : Component → Option (List Text)
  | .root => some []
  | .current => some names
  | .parent => ((t.below? names).filter isDirectory).map fun _ => names.dropLast
  | .name name => ((t.below? names).bind (child? · name)).map fun _ => names ++ [name]

/-- The path can lead to a directory only. -/
def wantsDirectory (p : FilePath) : Bool :=
  p.text == ['.'] || Text.endsWith ['/'] p.text || Text.endsWith ['/', '.'] p.text

/-- The names that lead from the root where a path leads.  An empty path leads nowhere. -/
def names? (t : FileTree) (p : FilePath) : Option (List Text) := do
  let names ← p.components.foldlM t.step? []
  let node ← t.below? names
  if p.text.isEmpty || wantsDirectory p && node.isFile then none else some names

/-- What a path leads to. -/
def at? (t : FileTree) (p : FilePath) : Option FileTree := (t.names? p).bind t.below?

/-- The path leads to a file. -/
def hasFile (t : FileTree) (p : FilePath) : Bool := (t.at? p).any isFile

end FileTree

/-- The path from the root along a list of names. -/
def FilePath.ofNames (names : List Text) : FilePath := ⟨'/' :: Text.joinWith ['/'] names⟩

end PhpLint

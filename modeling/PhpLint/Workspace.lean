import PhpLint.FileTree
import PhpLint.Utf8

/-!
# Workspaces

What a run of the program finds around it: the files, the current directory, and the variables of
its environment.  A relative path starts at the current directory, and an empty one leads nowhere.
-/

namespace PhpLint

/-- The surroundings of a run. -/
structure Workspace where
  tree : FileTree
  /-- The current directory, as an absolute path. -/
  current : FilePath
  /-- The variables of the environment. -/
  environment : List (Text × Text) := []

namespace Workspace

/-- The value of a variable. -/
def lookup? (w : Workspace) (name : String) : Option Text := w.environment.lookup name.toList

/-- The names that lead from the root where a path leads. -/
def names? (w : Workspace) (p : FilePath) : Option (List Text) :=
  if p.text.isEmpty then none else w.tree.names? (w.current.join p)

/-- What a path leads to. -/
def at? (w : Workspace) (p : FilePath) : Option FileTree := (w.names? p).bind w.tree.below?

/-- The path leads somewhere. -/
def holds (w : Workspace) (p : FilePath) : Bool := (w.at? p).isSome

/-- The path leads to a file. -/
def hasFile (w : Workspace) (p : FilePath) : Bool := (w.at? p).any FileTree.isFile

/-- The path from the root to where a path leads. -/
def resolve? (w : Workspace) (p : FilePath) : Option FilePath := (w.names? p).map FilePath.ofNames

/-- The text of the file that a path leads to. -/
def text? (w : Workspace) (p : FilePath) : Option Text :=
  ((w.at? p).bind FileTree.content?).bind fun bytes => (Utf8.decode bytes).toOption

end Workspace

end PhpLint

import PhpLint.Config
import PhpLint.Glob
import PhpLint.Ignore.Rules

/-!
# The files to check

All files below the root of a run that the ignore files leave over, that have one of the
extensions, and that no exclusion covers, in the order of their paths.  An ignored directory hides
what is below it, whatever the rules say about that; the root itself is never ignored.

An **exclusion** covers a path when it stands for it as a glob, absolute or below the base
directory, or when the absolute path holds the pattern, its double stars taken out, as a part.
-/

namespace PhpLint

/-- A file and its bytes. -/
structure SourceFile where
  path : FilePath
  bytes : List UInt8

namespace Discovery

open Ignore (Level Files)

mutual

/-- The files at or below a path that the levels of ignore files leave over. -/
def filesAt (heeded : Bool) (levels : List Level) (path : FilePath) : FileTree → List SourceFile
  | .file bytes => [⟨path, bytes⟩]
  | .directory entries =>
    let level := Level.ofFiles (Files.ofDirectory heeded (.directory entries)) []
    filesIn heeded (level :: levels) path entries

/-- The files in some entries of a directory. -/
def filesIn (heeded : Bool) (levels : List Level) (path : FilePath) :
    List (Text × FileTree) → List SourceFile
  | [] => []
  | (name, node) :: rest =>
    let found :=
      if Level.ignores levels name node.isDirectory then []
      else filesAt heeded (levels.map (·.enter name)) (path.join ⟨name⟩) node
    found ++ filesIn heeded levels path rest

end

/-- The ignore files of the directories around the one that names lead to, nearest first, with the
names that lead on from there. -/
def outerFiles (heeded : Bool) (tree : FileTree) (names : List Text) : List (Files × List Text) :=
  (List.range names.length).reverse.filterMap fun n =>
    (tree.below? (names.take n)).map fun directory =>
      (Files.ofDirectory heeded directory, names.drop n)

/-- Why the files cannot be listed. -/
inductive WalkError
  /-- The root leads nowhere. -/
  | missing
  /-- An ignore file around the root holds a pattern that makes no sense. -/
  | malformed
  deriving DecidableEq, Repr

/-- All files below a root that ignore files leave over. -/
def visibleFiles (heeded : Bool) (tree : FileTree) (root : FilePath) :
    Except WalkError (List SourceFile) :=
  match tree.names? root with
  | none => .error .missing
  | some names =>
    match tree.below? names with
    | none => .error .missing
    | some (.file bytes) => .ok [⟨root, bytes⟩]
    | some directory =>
      let outer := outerFiles heeded tree names
      if outer.any (·.1.isMalformed) then .error .malformed
      else .ok (filesAt heeded (outer.map fun (f, trail) => .ofFiles f trail) root directory)

end Discovery

/-- The file's extension is one of a list, whose dots in front do not count. -/
def FilePath.hasExtension (p : FilePath) (extensions : List Text) : Bool :=
  p.extension?.any fun e =>
    extensions.any fun allowed => Text.sameLetters (Text.trimStartOf (· == '.') allowed) e

namespace Exclusion

/-- A pattern without its double stars. -/
def withoutStars : Text → Text
  | '*' :: '*' :: rest => withoutStars rest
  | c :: rest => c :: withoutStars rest
  | [] => []

/-- The pattern, taken as a part of a path, says something. -/
def isPart (part : Text) : Bool := !part.isEmpty && part != ['/']

/-- The exclusion covers a path. -/
def covers (base : FilePath) (exclusion : Glob) (p : FilePath) : Bool :=
  let part := withoutStars exclusion.pattern
  exclusion.accepts p.text || exclusion.accepts (p.relativeTo base).text ||
    isPart part && Text.includes part p.text

end Exclusion

end PhpLint

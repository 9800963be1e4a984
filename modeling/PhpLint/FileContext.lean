import PhpLint.Symbol.Table
import PhpLint.Violation

/-!
# What a check sees of a file

The text and the tokens of one file, the declarations of all files checked together, and the path
of the file below the base directory.  A file counts as a test when a directory on that path is
named for tests, or its own name ends in `Test`.
-/

namespace PhpLint

/-- What a check sees of a file. -/
structure FileContext where
  source : Text
  stream : TokenStream
  symbols : SymbolTable
  /-- The path below the base directory. -/
  path : FilePath

namespace FileContext

/-- The context of a file at a path, reported relative to a base directory. -/
def under (base path : FilePath) (source : Text) (stream : TokenStream) (symbols : SymbolTable) :
    FileContext :=
  ⟨source, stream, symbols, path.relativeTo base⟩

/-- The names of directories that hold tests. -/
def testDirectories : List Text := ["tests".toList, "test".toList, "Tests".toList]

/-- The path is that of a test. -/
def isTestPath (p : FilePath) : Bool :=
  p.components.any (fun c => testDirectories.any fun d => c == .name d) ||
    p.stem?.any (Text.endsWith "Test".toList)

/-- The file is a test. -/
def isTest (ctx : FileContext) : Bool := isTestPath ctx.path

/-- The span of the token at an index, or the start of the file without one. -/
def location (ctx : FileContext) (i : Nat) : Location :=
  match ctx.stream.token? i with
  | some t => .ofToken ctx.path t
  | none => .point ctx.path 1 1

/-- A label at the token at an index. -/
def label (ctx : FileContext) (i : Nat) (message : String) : Label := ⟨ctx.location i, message⟩

end FileContext

end PhpLint

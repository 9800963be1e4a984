import PhpLint.FileTree
import PhpLint.Ignore.Pattern

/-!
# Ignore files

A line of an ignore file is a rule, unless it is blank or a comment.  An exclamation mark in front
makes a rule keep what others ignore, a slash at the end restricts it to directories, and a slash
further in front, or a first one, ties it to the directory of the file.  The last rule that has
something to say about a path decides.

Three files of a directory hold rules for what is below it, and one that has something to say comes
before the others even when they are nearer: first those of `.ignore`, then those of `.gitignore`,
then the exclusions of the repository itself.  Of files of one sort the nearest one decides.
-/

namespace PhpLint.Ignore

/-- A rule about paths. -/
structure Rule where
  parts : List Part
  /-- What it stands for is kept. -/
  keeps : Bool
  directoriesOnly : Bool
  deriving Repr

/-- What rules say about a path. -/
inductive Verdict
  | ignored | kept
  deriving DecidableEq, Repr

/-- What a line of an ignore file means. -/
inductive Line
  | blank
  | rule (r : Rule)
  /-- The pattern makes no sense. -/
  | malformed

/-- The pattern for paths below the directory of the file, from what a line says of it. -/
def fullPattern (anchored : Bool) (body : Text) : Text :=
  let pattern :=
    if anchored || body.contains '/' || body == ['*', '*'] then body else "**/".toList ++ body
  if Text.endsWith "/**".toList pattern then pattern ++ "/*".toList else pattern

/-- What stands in front of a line's pattern: whether the rule keeps, and whether it is tied to the
directory of the file. -/
def marks : Text → Bool × Bool × Text
  | '\\' :: '!' :: rest => (false, false, '!' :: rest)
  | '\\' :: '#' :: rest => (false, false, '#' :: rest)
  | '!' :: '/' :: rest => (true, true, rest)
  | '!' :: rest => (true, false, rest)
  | '/' :: rest => (false, true, rest)
  | t => (false, false, t)

/-- A pattern without the slash at its end, and without a backslash before that slash. -/
def directoryMark (t : Text) : Bool × Text :=
  match t.reverse with
  | '/' :: '\\' :: rest => (true, rest.reverse)
  | '/' :: rest => (true, rest.reverse)
  | _ => (false, t)

/-- The meaning of a line. -/
def Line.ofText (line : Text) : Line :=
  let written := if Text.endsWith ['\\', ' '] line then line else Text.trimEnd line
  if line.head? = some '#' || written.isEmpty then .blank
  else
    let (keeps, anchored, marked) := marks written
    let (directoriesOnly, body) := directoryMark marked
    match parse? (fullPattern anchored body) with
    | some parts => .rule ⟨parts, keeps, directoriesOnly⟩
    | none => .malformed

/-- The lines of a file up to the first one that is no text. -/
def readableLines (bytes : List UInt8) : List Text :=
  match Utf8.decode bytes with
  | .ok t => Text.lines t
  | .error f =>
    (Text.splitOn '\n' (Utf8.decodeLossy (bytes.take f.offset))).dropLast.map Text.dropReturn

/-- A text without byte order marks in front. -/
def dropMarks (t : Text) : Text := Text.trimStartOf (·.toNat == 0xFEFF) t

/-- The lines of an ignore file. -/
def linesOf (bytes : List UInt8) : List Line :=
  match readableLines bytes with
  | [] => []
  | first :: rest => (dropMarks first :: rest).map Line.ofText

/-- The rule of a line. -/
def Line.rule? : Line → Option Rule
  | rule r => some r
  | _ => none

/-- The line's pattern makes no sense. -/
def Line.isMalformed : Line → Bool
  | malformed => true
  | _ => false

/-- What a rule says about a path. -/
def Rule.verdict? (r : Rule) (path : List UInt8) (isDirectory : Bool) : Option Verdict :=
  if (!r.directoriesOnly || isDirectory) && acceptsPath r.parts path then
    some (if r.keeps then .kept else .ignored)
  else none

/-- What the last rule that has something to say says about a path. -/
def verdict? (rules : List Rule) (path : List UInt8) (isDirectory : Bool) : Option Verdict :=
  rules.reverse.findSome? fun r => r.verdict? path isDirectory

/-- The lines of the ignore files of one directory. -/
structure Files where
  /-- Of `.ignore`. -/
  plain : List Line
  /-- Of `.gitignore`. -/
  versioned : List Line
  /-- Of the exclusions of the repository. -/
  repository : List Line

namespace Files

/-- The lines of the file along a list of names. -/
def linesAt (directory : FileTree) (names : List Text) : List Line :=
  (((directory.below? names).bind FileTree.content?).map linesOf).getD []

/-- The ignore files of a directory; those of version control count only if they are heeded. -/
def ofDirectory (heeded : Bool) (directory : FileTree) : Files :=
  let versioned (names : List Text) := if heeded then linesAt directory names else []
  { plain := linesAt directory [".ignore".toList]
    versioned := versioned [".gitignore".toList]
    repository := versioned [".git".toList, "info".toList, "exclude".toList] }

/-- Some pattern in the files makes no sense. -/
def isMalformed (f : Files) : Bool :=
  (f.plain ++ f.versioned ++ f.repository).any Line.isMalformed

end Files

/-- The rules of a directory, as they are seen from one at or below it. -/
structure Level where
  plain : List Rule
  versioned : List Rule
  repository : List Rule
  /-- The names that lead from the directory of the rules to the one they are seen from. -/
  trail : List Text

namespace Level

/-- The rules of some files. -/
def ofFiles (f : Files) (trail : List Text) : Level :=
  { plain := f.plain.filterMap Line.rule?
    versioned := f.versioned.filterMap Line.rule?
    repository := f.repository.filterMap Line.rule?
    trail }

/-- The rules as they are seen from an entry of the directory they were seen from. -/
def enter (name : Text) (l : Level) : Level := { l with trail := l.trail ++ [name] }

/-- The bytes of the path to an entry from the directory of the rules. -/
def pathTo (l : Level) (name : Text) : List UInt8 :=
  Utf8.encode (Text.joinWith ['/'] (l.trail ++ [name]))

/-- What the rules of one sort say about an entry, nearest level first. -/
def verdictOf? (levels : List Level) (sort : Level → List Rule) (name : Text)
    (isDirectory : Bool) : Option Verdict :=
  levels.findSome? fun l => Ignore.verdict? (sort l) (l.pathTo name) isDirectory

/-- The levels, nearest first, ignore an entry. -/
def ignores (levels : List Level) (name : Text) (isDirectory : Bool) : Bool :=
  let verdict := ((verdictOf? levels plain name isDirectory).or
    (verdictOf? levels versioned name isDirectory)).or
    (verdictOf? levels repository name isDirectory)
  verdict == some .ignored

end Level

end PhpLint.Ignore

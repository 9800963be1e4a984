import PhpLint.Text

/-!
# Readers

A **reader** takes something off the front of a text, or fails.  The readers of TOML are built from
the few here: one character of a class, a run of a class, a fixed text, one thing or another, and
lists of things with a separator.
-/

namespace PhpLint.Toml

/-- Something that takes a value off the front of a text. -/
abbrev Reader := StateT Text Option

namespace Reader

/-- The next character. -/
def anyChar : Reader Char
  | c :: rest => some (c, rest)
  | [] => none

/-- The next character, which is not taken. -/
def peek : Reader (Option Char) := fun t => some (t.head?, t)

/-- The next character, which has to belong to a class. -/
def oneOf (p : Char → Bool) : Reader Char
  | c :: rest => if p c then some (c, rest) else none
  | [] => none

/-- The characters of a class. -/
def run (p : Char → Bool) : Reader Text := fun t =>
  let taken := t.takeWhile p
  some (taken, t.drop taken.length)

/-- At least one character of a class. -/
def run1 (p : Char → Bool) : Reader Text := do
  let taken ← run p
  if taken.isEmpty then failure else return taken

/-- A fixed text. -/
def literal (expected : Text) : Reader Unit := fun t =>
  (Text.stripStart expected t).map fun rest => ((), rest)

/-- What the reader takes, or nothing where it fails. -/
def maybe (r : Reader α) : Reader (Option α) := fun t =>
  match r t with
  | some (a, rest) => some (some a, rest)
  | none => some (none, t)

/-- The end of the text. -/
def atEnd : Reader Unit
  | [] => some ((), [])
  | _ :: _ => none

/-- As many things as the reader takes, at most `fuel` of them. -/
def manyUpTo (r : Reader α) : (fuel : Nat) → Reader (List α)
  | 0 => return []
  | fuel + 1 => do
    match ← maybe r with
    | some a => return a :: (← manyUpTo r fuel)
    | none => return []

/-- As many things as the reader takes, each of at least one character. -/
def many (r : Reader α) : Reader (List α) := fun t => manyUpTo r t.length t

/-- Things with a separator between any two. -/
def separated (r : Reader α) (separator : Reader Unit) : Reader (List α) := do
  match ← maybe r with
  | none => return []
  | some first => return first :: (← many (do separator; r))

end Reader

/-- A line feed, or a carriage return and a line feed. -/
def newline : Reader Unit := do
  let c ← Reader.anyChar
  if c = '\n' then return ()
  else if c = '\r' then Reader.literal ['\n']
  else failure

/-- Spaces and tabs. -/
def blanks : Reader Unit := do
  let _ ← Reader.run isBlank

/-- A character beyond ASCII. -/
def isBeyondAscii (c : Char) : Bool := 128 ≤ c.toNat

/-- A character of a comment. -/
def isCommentChar (c : Char) : Bool :=
  c == '\t' || (0x20 ≤ c.toNat && c.toNat ≤ 0x7E) || isBeyondAscii c

/-- A comment up to the end of its line. -/
def comment : Reader Unit := do
  Reader.literal ['#']
  let _ ← Reader.run isCommentChar

/-- The end of a line, or of the text. -/
def lineEnd : Reader Unit := fun t => if t.isEmpty then some ((), t) else newline t

/-- The rest of a line after a statement. -/
def lineTrailing : Reader Unit := do
  blanks
  let _ ← Reader.maybe comment
  lineEnd

/-- Blanks, comments and line ends. -/
def gaps : Reader Unit := do
  let blank : Reader Unit := do let _ ← Reader.run1 isBlank
  let line : Reader Unit := do
    let _ ← Reader.maybe comment
    newline
  let _ ← Reader.many (fun t => (blank t).or (line t))

end PhpLint.Toml

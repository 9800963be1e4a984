import PhpLint.Sniff

/-!
# The strict types declaration

A file declares strict types on the line right after its open tag, from the first column on and
without white space.  The check looks at the first open tag of a file.  It searches the parts of the
declaration one after another from the `declare` keyword on, each as the next token of its kind, and
then asks whether the parts stand side by side; the first condition that fails is reported.
-/

namespace PhpLint.StrictDeclaration

/-- What is wrong with a file's declaration of strict types. -/
inductive Failure
  | missing | wrongPosition | leadingSpace | invalid
  deriving DecidableEq, Repr

namespace Failure

/-- The short name of the failure. -/
def reason : Failure → String
  | missing => "MissingDeclaration"
  | wrongPosition => "WrongPosition"
  | leadingSpace => "LeadingSpace"
  | invalid => "InvalidDeclaration"

/-- What is wrong, in words. -/
def message : Failure → String
  | missing => "Strict type declaration not found in file"
  | wrongPosition =>
    "Strict type declaration must be on the line immediately following the opening tag"
  | leadingSpace => "Strict type declaration must be on its own line with no leading spaces"
  | invalid => "Strict type declaration invalid, must be `declare(strict_types=1);`"

end Failure

/-- The kinds of the tokens after `declare`, and the text where it matters. -/
def shape : List (Kind × Option Text) :=
  [(.opens .round, none), (.identifier, some "strict_types".toList), (.assign, none),
   (.integer, some ['1']), (.closes .round, none), (.semicolon, none)]

/-- The next tokens of the given kinds from an index on, each at or after the one before. -/
def parts? (s : TokenStream) : List Kind → Nat → Option (List Token)
  | [], _ => some []
  | k :: ks, start => do
    let i ← s.findNext (· == k) start
    let t ← s.token? i
    return t :: (← parts? s ks i)

/-- The tokens stand on one line, side by side from a column on. -/
def adjacent (line column : Nat) : List Token → Bool
  | [] => true
  | t :: ts => t.line == line && t.column == column && adjacent line t.endColumn ts

/-- The `declare` keyword at an index starts the declaration as it has to be written. -/
def wellFormed (s : TokenStream) (index : Nat) (keyword : Token) : Bool :=
  match parts? s (shape.map Prod.fst) index with
  | none => false
  | some parts =>
    (parts.zip shape).all (fun (t, _, text) => text.all (t.content == ·)) &&
      adjacent keyword.line keyword.endColumn parts

/-- The first thing that is wrong with the declaration after the token at `start`. -/
def failure? (s : TokenStream) (start : Nat) : Option Failure :=
  match s.findNext (· == .keyword .kwDeclare) start with
  | none => some .missing
  | some index =>
    match s.token? index with
    | none => some .missing
    | some keyword =>
      if keyword.line ≠ s.line start + 1 then some .wrongPosition
      else if keyword.column ≠ 1 then some .leadingSpace
      else if wellFormed s index keyword then none
      else some .invalid

/-- The findings at an open tag: only the first one of a file is looked at. -/
def findings (ctx : FileContext) (i : Nat) : List Finding :=
  if (ctx.stream.findBefore (· == .openTag) i).isSome then []
  else match failure? ctx.stream i with
    | some f => [{ index := i, reason := f.reason, message := f.message }]
    | none => []

/-- The check for the declaration of strict types. -/
def sniff (severity : Severity) : Sniff where
  name := "strict-declaration"
  code := "PS001"
  description := "Requires `declare(strict_types=1);` on the line after the open tag"
  severity
  listensTo := [.openTag]
  findings

end PhpLint.StrictDeclaration

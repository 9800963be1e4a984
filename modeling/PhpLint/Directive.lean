import PhpLint.Text

/-!
# Allow directives

A comment may allow rules on its line and the next: after a comment marker it names the tool, and
then, in parentheses, the rules, perhaps with a reason in quotes.  A line is read by itself, without
regard to what kind of token its characters belong to: whatever ends in a marker before the tool's
name counts as a comment.

Of the two lines that may cover a place the one before it is asked first, and its directive decides
if it names the rule or all rules.
-/

namespace PhpLint

/-- The rules that a line allows, and why. -/
structure Directive where
  rules : List Text
  reason : Option Text
  deriving DecidableEq, Repr

/-- Whether a rule is allowed at a place, and for what reason. -/
inductive Allowance
  | denied
  | allowed (reason : Option Text)
  deriving DecidableEq, Repr

namespace Allowance

/-- The rule is allowed. -/
def isAllowed : Allowance → Bool
  | allowed _ => true
  | denied => false

/-- The reason why the rule is allowed. -/
def reason : Allowance → Option Text
  | allowed r => r
  | denied => none

end Allowance

namespace Directive

/-- What names the tool in a comment. -/
def toolName : Text := "php-standards:".toList

/-- What starts a comment. -/
def markers : List Text := ["//".toList, "#".toList, "/*".toList]

/-- The reason in quotes at the front of a text. -/
def reasonOf (t : Text) : Option Text := do
  let value ← Text.stripStart "reason=".toList t
  let inside ← Text.stripStart ['"'] (Text.trim value)
  let (reason, _) ← Text.cut ['"'] inside
  some reason

/-- The names in a list separated by commas, empty ones left out. -/
def rulesOf (t : Text) : List Text :=
  ((Text.splitOn ',' t).map Text.trim).filter fun rule => !rule.isEmpty

/-- The directive on a line. -/
def ofLine? (line : Text) : Option Directive := do
  let (before, after) ← Text.cut toolName line
  if markers.any fun marker => Text.endsWith marker (Text.trimEnd before) then
    let list ← Text.stripStart "allow(".toList (Text.trim after)
    let (names, rest) ← Text.cut [')'] (Text.trim list)
    let rules := rulesOf names
    if rules.isEmpty then none else some ⟨rules, reasonOf (Text.trim rest)⟩
  else none

/-- The directive names the rule, or all rules. -/
def covers (d : Directive) (rule : Text) : Bool :=
  d.rules.contains rule || d.rules.contains "all".toList

/-- The directive that covers a rule on a line counted from one, if that line has one. -/
def onLine? (lines : List Text) (rule : Text) (line : Nat) : Option Directive :=
  if line = 0 then none
  else (lines[line - 1]?).bind fun t => (ofLine? t).filter (·.covers rule)

/-- Whether a source allows a rule on a line. -/
def check (source : Text) (line : Nat) (rule : Text) : Allowance :=
  let lines := Text.lines source
  match (onLine? lines rule (line - 1)).or (onLine? lines rule line) with
  | some d => .allowed d.reason
  | none => .denied

end Directive

end PhpLint

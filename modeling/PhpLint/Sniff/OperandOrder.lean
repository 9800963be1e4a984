import PhpLint.Sniff
import PhpLint.Unicode.Case

/-!
# The order of operands in comparisons

A comparison with a literal has the literal on one side, by the style that is enforced: on the left,
which is called a Yoda condition, or on the right.  An operand is a **lone literal** when it is one
literal, perhaps with a sign, and no operator that binds tighter ties it to something further out.
-/

namespace PhpLint.OperandOrder

/-- Where a literal belongs. -/
inductive Style
  /-- On the left. -/
  | require
  /-- On the right. -/
  | disallow
  deriving DecidableEq, Repr

namespace Style

/-- How a style is written. -/
def name : Style → String
  | require => "require"
  | disallow => "disallow"

/-- The style that a text names in any case, or the text in lower case. -/
def ofText (t : Text) : Except Text Style :=
  let lower := Unicode.lowercase t
  if lower = "require".toList then .ok .require
  else if lower = "disallow".toList then .ok .disallow
  else .error lower

/-- What is said of a text that names no style. -/
def unknownMessage (lower : Text) : String :=
  s!"unknown yoda style `{String.ofList lower}`, expected require or disallow"

end Style

/-- A literal by its kind. -/
def isLiteral : Kind → Bool
  | .keyword .kwTrue | .keyword .kwFalse | .keyword .kwNull => true
  | .integer | .float | .quoted => true
  | _ => false

/-- A number by its kind. -/
def isNumber : Kind → Bool
  | .integer | .float => true
  | _ => false

/-- A value may end with a token of this kind, so that a sign after it joins two values. -/
def endsOperand : Kind → Bool
  | .variableName | .identifier => true
  | .closes .round | .closes .square | .closes .curly => true
  | k => isLiteral k

/-- The operators that tie a literal to its neighbour. -/
def bindingOperators : List Text :=
  ["+".toList, "-".toList, "*".toList, "/".toList, "%".toList, "**".toList, ".".toList,
   "<<".toList, ">>".toList, "&".toList, "|".toList, "^".toList, "??".toList]

/-- The token at the index ties a literal to its neighbour. -/
def binds (s : TokenStream) (i : Nat) : Bool :=
  s.isAt i .doubleColon || s.isAt i .arrow ||
    s.isAt i .operator && bindingOperators.contains (s.content i)

/-- The token at the index is a sign. -/
def isSign (s : TokenStream) (i : Nat) : Bool :=
  s.isAt i .operator && (s.content i == ['-'] || s.content i == ['+'])

/-- The operand before the operator at an index is a lone literal. -/
def leftIsLiteral (s : TokenStream) (operator : Nat) : Bool :=
  match s.previousSignificant operator with
  | none => false
  | some literal =>
    if !s.has literal isLiteral then false
    else match s.previousSignificant literal with
      | none => true
      | some before =>
        if isSign s before && s.has literal isNumber then
          match s.previousSignificant before with
          | none => true
          | some further => !s.has further endsOperand && !binds s further
        else !binds s before

/-- The operand after the operator at an index is a lone literal. -/
def rightIsLiteral (s : TokenStream) (operator : Nat) : Bool :=
  let literal? := (s.nextSignificant operator).bind fun next =>
    if isSign s next then (s.nextSignificant next).filter (s.has · isNumber) else some next
  match literal? with
  | none => false
  | some literal =>
    s.has literal isLiteral &&
      !(s.nextSignificant literal).any fun after => binds s after || s.isAt after (.opens .square)

/-- The findings at the comparison at an index. -/
def findings (style : Style) (ctx : FileContext) (i : Nat) : List Finding :=
  let s := ctx.stream
  let left := leftIsLiteral s i
  let right := rightIsLiteral s i
  let operator := String.ofList (s.content i)
  match style with
  | .require =>
    if !left && right then
      [{ index := i, reason := "NotYoda",
         message := s!"Use Yoda condition, place the literal on the left of `{operator}`" }]
    else []
  | .disallow =>
    if left && !right then
      [{ index := i, reason := "Found",
         message := s!"Yoda condition found, place the literal on the right of `{operator}`" }]
    else []

/-- The check for the order of operands in comparisons. -/
def sniff (severity : Severity) (style : Style) : Sniff where
  name := "yoda-condition"
  code := "PS005"
  description := "Enforces the operand order of comparisons against literals"
  severity
  listensTo := Comparison.all.map .comparison
  findings := findings style

end PhpLint.OperandOrder

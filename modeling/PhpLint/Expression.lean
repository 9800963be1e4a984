import PhpLint.Symbol.Name

/-!
# Expressions and their types

The little of the language that decides the type of a factory call: the call, its arguments, and the
types that can be told of them.  A scope says the type of every expression; the scope of literals
knows no variables.
-/

namespace PhpLint

/-- An expression. -/
inductive Expression
  | variableName (name : Text)
  | string (value : Text)
  | integer (value : Int)
  /-- A constant of a class; its name may be `class`. -/
  | constant (className name : Text)
  | call (receiver : Expression) (method : Text) (arguments : List Expression)
  deriving Repr, Inhabited

/-- A call of a method. -/
structure MethodCall where
  receiver : Expression
  method : Text
  arguments : List Expression
  deriving Repr, Inhabited

/-- The call as an expression. -/
def MethodCall.expression (c : MethodCall) : Expression := .call c.receiver c.method c.arguments

/-- What is known about the type of an expression. -/
inductive InferredType
  | mixed
  | object (className : Text)
  | constantString (value : Text)
  | constantInteger (value : Int)
  deriving DecidableEq, Repr

namespace InferredType

/-- How a type is written. -/
def text : InferredType → Text
  | mixed => "mixed".toList
  | object className => className
  | constantString value => '\'' :: value ++ ['\'']
  | constantInteger value => (toString value).toList

/-- The value of a constant string. -/
def asConstantString? : InferredType → Option Text
  | constantString value => some value
  | _ => none

end InferredType

/-- The type of every expression at a place of the program. -/
abbrev Scope := Expression → InferredType

/-- The scope that knows literals alone.  The constant `class` of a class is its name as a string. -/
def literalScope : Scope
  | .string value => .constantString value
  | .integer value => .constantInteger value
  | .constant className name =>
    if Text.sameLetters name "class".toList then .constantString (stripLeading className) else .mixed
  | _ => .mixed

end PhpLint

import PhpLint.Expression

/-!
# Extensions

An extension says the type of calls to some methods of one class.  **Factory methods** are the usual
kind: the object that they make is of the class that is named in one of their arguments.
-/

namespace PhpLint

/-- The types of calls to some methods of a class. -/
structure Extension where
  className : Text
  /-- The methods whose calls have a type here. -/
  supports : Text → Bool
  /-- The type of a call to a method. -/
  typeOf : (method : Text) → MethodCall → Scope → InferredType
  /-- The extension on one line. -/
  summary : Text := className

/-- Methods that make an object of the class named in one of their arguments. -/
structure FactoryMethods where
  className : Text
  methods : List Text
  /-- The position of the argument that names the class. -/
  position : Nat := 0
  deriving DecidableEq, Repr

namespace FactoryMethods

/-- The type of a call: the class that the argument names, where its value is known. -/
def typeOf (f : FactoryMethods) (c : MethodCall) (scope : Scope) : InferredType :=
  match (c.arguments[f.position]?).map scope with
  | some (.constantString className) => .object className
  | _ => .mixed

/-- The class, its methods and the position of the argument on one line. -/
def summary (f : FactoryMethods) : Text :=
  f.className ++ "::".toList ++ '{' :: Text.joinWith ", ".toList f.methods ++
    "\x7d (argument ".toList ++ (toString f.position).toList ++ [')']

/-- The extension for the factory methods. -/
def toExtension (f : FactoryMethods) : Extension where
  className := f.className
  supports := f.methods.contains
  typeOf _ := f.typeOf
  summary := f.summary

end FactoryMethods

end PhpLint

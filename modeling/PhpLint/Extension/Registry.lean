import PhpLint.Extension
import PhpLint.Text.Quoted
import PhpLint.Toml.Document
import PhpLint.Toml.Record

/-!
# The registry of extensions

Extensions are asked in the order in which they were registered, and the first one for the class and
the method decides.  Class names are compared up to the case of ASCII letters and separators in front
of them, method names exactly.

A registry is read from the lists of factory methods in a configuration; all else there is ignored.
An entry of the wrong shape makes the document unreadable, and of the entries that have the right
shape the first one without a class or without methods is reported.
-/

namespace PhpLint

/-- The extensions that are asked, in order. -/
structure Registry where
  extensions : List Extension := []

/-- Why no registry can be read from a document. -/
inductive RegistryError
  /-- The document is no TOML, or an entry has the wrong shape. -/
  | unreadable
  | noClass (index : Nat)
  | noMethods (index : Nat) (className : Text)
  deriving DecidableEq, Repr

namespace RegistryError

/-- What is wrong with the entry at an index. -/
def atEntry (index : Nat) (problem : String) : String := s!"factory_methods[{index}]: {problem}"

/-- The wording of an error about an entry. -/
def message? : RegistryError → Option String
  | unreadable => none
  | noClass index => some (atEntry index "class must not be empty")
  | noMethods index className =>
    some (atEntry index s!"no methods listed for {String.ofList className}")

end RegistryError

namespace FactoryMethods

/-- The names of the fields, in order. -/
def fieldNames : List Text := ["class".toList, "methods".toList, "argument".toList]

/-- The position that a value writes. -/
def positionOf? (v : Toml.Value) : Option Nat :=
  v.asInteger?.bind fun n => if n < 0 then none else some n.toNat

/-- The factory methods that a value writes. -/
def ofValue? (v : Toml.Value) : Option FactoryMethods := do
  let fields ← v.fields? fieldNames
  let className ← (fields.get? "class".toList).bind Toml.Value.asString?
  let methods ← (fields.get? "methods".toList).bind Toml.Value.asTexts?
  let position ← fields.field? "argument".toList positionOf?
  some { className, methods, position := position.getD 0 }

/-- What is wrong with the factory methods at an index of the list, if anything is. -/
def error? (index : Nat) (f : FactoryMethods) : Option RegistryError :=
  if (Text.trim f.className).isEmpty then some (.noClass index)
  else if f.methods.isEmpty then some (.noMethods index f.className)
  else none

end FactoryMethods

namespace Registry

/-- The registry with one more extension, which is asked last. -/
def register (r : Registry) (e : Extension) : Registry := ⟨r.extensions ++ [e]⟩

/-- The number of extensions. -/
def size (r : Registry) : Nat := r.extensions.length

/-- The extension says the type of calls to the method of the class. -/
def handles (className method : Text) (e : Extension) : Bool :=
  Text.sameLetters (stripLeading e.className) (stripLeading className) && e.supports method

/-- The type of a call to a method of a class, if an extension says it. -/
def resolve (r : Registry) (className method : Text) (c : MethodCall) (scope : Scope) :
    Option InferredType :=
  (r.extensions.find? (handles className method)).map fun e => e.typeOf method c scope

/-- The registry of a list of factory methods. -/
def ofFactories (fs : List FactoryMethods) : Except RegistryError Registry :=
  match fs.zipIdx.findSome? fun (f, index) => f.error? index with
  | some e => .error e
  | none => .ok ⟨fs.map FactoryMethods.toExtension⟩

/-- The factory methods that a document lists. -/
def factoriesOfText? (t : Text) : Option (List FactoryMethods) := do
  let entries ← Toml.Document.read? t
  let list ← entries.field? "factory_methods".toList Toml.Value.asArray?
  (list.getD []).mapM FactoryMethods.ofValue?

/-- The registry that a document writes. -/
def ofText (t : Text) : Except RegistryError Registry :=
  match factoriesOfText? t with
  | some fs => ofFactories fs
  | none => .error .unreadable

/-- The classes in a listing for debugging. -/
def listing (r : Registry) : Text := Text.quotedList (r.extensions.map (·.className))

end Registry

end PhpLint

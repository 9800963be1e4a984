import PhpLint.Proofs.Extension.Resolution
import PhpLint.Proofs.Symbols.Enclosing

/-!
# A class named in an argument

A call of a factory method names the class of the object in one of its arguments, as a string or by the
constant `class` of the class.  The constant is the name without the separators in front; the string keeps
them.  So the two ways to name a class have one type where no separator stands in front, and otherwise two
types whose names are spellings of one (`resolve_classNamed`).
-/

namespace PhpLint

/-- The call with another expression for the argument at a position. -/
def MethodCall.withArgument (c : MethodCall) (position : Nat) (x : Expression) : MethodCall :=
  { c with arguments := c.arguments.set position x }

/-- Nothing is stripped from a name exactly if no separator stands in front of it. -/
theorem stripLeading_eq_self_iff {name : Text} :
    stripLeading name = name ↔ name.head? ≠ some '\\' := by
  constructor
  · intro h hhead
    rw [← h] at hhead
    exact absurd (Text.eq_false_of_mem_head?_trimStartOf hhead) (by decide)
  · exact SymbolTable.stripLeading_of_head?_ne

/-- A name without the separators in front is a spelling of it. -/
theorem respelled_stripLeading (name : Text) : Respelled name (stripLeading name) := by
  obtain ⟨j, hname⟩ := exists_replicate_stripLeading name
  exact ⟨j, 0, stripLeading name, stripLeading name, hname, rfl, Text.sameLetters_refl _⟩

variable {f : FactoryMethods} {c : MethodCall} {x : Expression} {scope : Scope}

/-- An argument whose value is known names the class of the object. -/
theorem FactoryMethods.typeOf_withArgument {name : Text} (h : f.position < c.arguments.length)
    (hx : scope x = .constantString name) :
    f.typeOf (c.withArgument f.position x) scope = .object name := by
  rw [typeOf, MethodCall.withArgument, List.getElem?_set_self h, Option.map_some, hx]

/-- The value of the constant is the name of its class without the separators in front. -/
theorem literalScope_class {word : Text} (h : Text.sameLetters word "class".toList = true)
    (name : Text) : literalScope (.constant name word) = .constantString (stripLeading name) :=
  if_pos h

namespace Registry

variable {r : Registry} {className method name word : Text}

/-- The argument that the deciding entry looks at says the type, whatever the others are. -/
theorem resolve_withArgument (hdecides : Decides r.extensions className method f.toExtension)
    (h : f.position < c.arguments.length) (hx : scope x = .constantString name) :
    r.resolve className method (c.withArgument f.position x) scope = some (.object name) :=
  resolve_eq_some_iff.2 ⟨f.toExtension, hdecides, FactoryMethods.typeOf_withArgument h hx⟩

/-- **A class has one type, be it named by a string or by its constant**, if no separator stands in front
of its name.  With separators in front there are two types, and the string keeps them.  Where no extension
handles the call, there is no type either way. -/
theorem resolve_classNamed (hword : Text.sameLetters word "class".toList = true) (r : Registry)
    (className method : Text) (c : MethodCall) (name : Text) :
    let ask (position : Nat) (x : Expression) :=
      r.resolve className method (c.withArgument position x) literalScope
    (∀ f : FactoryMethods, Decides r.extensions className method f.toExtension →
      f.position < c.arguments.length →
      (ask f.position (.string name) = ask f.position (.constant name word) ↔
        name.head? ≠ some '\\') ∧
      ∃ m n, ask f.position (.string name) = some (.object m) ∧
        ask f.position (.constant name word) = some (.object n) ∧ Respelled m n) ∧
    ((∀ e ∈ r.extensions, ¬e.Handles className method) →
      ∀ position, ask position (.string name) = none ∧
        ask position (.constant name word) = none) := by
  intro ask
  constructor
  · intro f hdecides h
    have hstring : ask f.position (.string name) = some (.object name) :=
      resolve_withArgument hdecides h rfl
    have hconstant : ask f.position (.constant name word) = some (.object (stripLeading name)) :=
      resolve_withArgument hdecides h (literalScope_class hword name)
    refine ⟨?_, name, stripLeading name, hstring, hconstant, respelled_stripLeading name⟩
    rw [hstring, hconstant, Option.some.injEq, InferredType.object.injEq, eq_comm]
    exact stripLeading_eq_self_iff
  · intro hnone position
    exact ⟨resolve_eq_none_iff.2 hnone, resolve_eq_none_iff.2 hnone⟩

/-- The second of two entries decides, by its second argument; a method of neither has no type. -/
theorem resolve_classNamed_second :
    let r : Registry := ⟨[FactoryMethods.toExtension ⟨"F".toList, ["get".toList], 0⟩,
      FactoryMethods.toExtension ⟨"\\f".toList, ["make".toList], 1⟩]⟩
    let call (x : Expression) : MethodCall := ⟨.variableName [], [], [.string ['B'], x]⟩
    r.resolve "F".toList "make".toList (call (.string "App\\A".toList)) literalScope =
        r.resolve "F".toList "make".toList (call (.constant "App\\A".toList "CLASS".toList))
          literalScope ∧
      r.resolve "F".toList "Make".toList (call (.string "App\\A".toList)) literalScope = none ∧
      r.resolve "F".toList "Make".toList (call (.constant "App\\A".toList "CLASS".toList))
        literalScope = none := by
  intro r call
  let f : FactoryMethods := ⟨"\\f".toList, ["make".toList], 1⟩
  let other : FactoryMethods := ⟨"F".toList, ["get".toList], 0⟩
  have hclass : Respelled f.className "F".toList := ⟨1, 0, "f".toList, "F".toList, rfl, rfl, by decide⟩
  have hbefore : ∀ b ∈ [other.toExtension], ¬b.Handles "F".toList "make".toList := by
    refine List.forall_mem_singleton.2 fun h => ?_
    exact absurd h.method (by decide)
  have hdecides : Decides r.extensions "F".toList "make".toList f.toExtension :=
    ⟨⟨hclass, by decide⟩, [other.toExtension], [], rfl, hbefore⟩
  have hnone : ∀ e ∈ r.extensions, ¬e.Handles "F".toList "Make".toList := by
    refine List.forall_mem_cons.2 ⟨fun h => absurd h.method (by decide), ?_⟩
    exact List.forall_mem_singleton.2 fun h => absurd h.method (by decide)
  have hword : Text.sameLetters "CLASS".toList "class".toList = true := by decide
  have hpresent : f.position < (call (.string [])).arguments.length := by decide
  have hanswers (method : Text) :=
    resolve_classNamed hword r "F".toList method (call (.string [])) "App\\A".toList
  exact ⟨((hanswers "make".toList).1 f hdecides hpresent).1.2 (by decide),
    (hanswers "Make".toList).2 hnone 1⟩

/-- A separator in front of a string stays there, and the constant of the same class has none. -/
theorem resolve_separated_string :
    let r : Registry := ⟨[FactoryMethods.toExtension ⟨"F".toList, ["make".toList], 0⟩]⟩
    let call (x : Expression) : MethodCall := ⟨.variableName "f".toList, "make".toList, [x]⟩
    r.resolve "F".toList "make".toList (call (.string "\\A".toList)) literalScope =
        some (.object "\\A".toList) ∧
      r.resolve "F".toList "make".toList (call (.constant "\\A".toList "class".toList)) literalScope =
        some (.object "A".toList) := by
  decide

end Registry

end PhpLint

import PhpLint.Symbol.NameScope

/-!
# Type declarations

What the header and the body of a class, interface or trait say about it: its full name, the names
it extends and implements, the traits its body uses, and the methods its body declares.

The body is read by a **cursor** that visits one index after another.  At a method it notes the name
and jumps to the end of the method's body, so that nothing inside is mistaken for a member;
`lt_memberNext` says that no jump leads back.
-/

namespace PhpLint

/-- What a declaration declares. -/
inductive TypeSort
  | classType | interfaceType | traitType
  deriving DecidableEq, Repr

/-- What is known of a declared type. -/
structure TypeSymbol where
  /-- The full name. -/
  name : Text
  sort : TypeSort
  /-- The class that it extends; an interface extends interfaces instead. -/
  parents : List Text
  /-- The interfaces that it implements, or extends if it is one. -/
  interfaces : List Text
  /-- The traits that its body uses. -/
  traits : List Text
  /-- The names of the methods that its body declares. -/
  methods : List Text
  deriving DecidableEq, Repr

/-- The declaration itself declares the method, up to the case of ASCII letters. -/
def TypeSymbol.declares (symbol : TypeSymbol) (method : Text) : Bool :=
  symbol.methods.any (Text.sameLetters · method)

/-- The names of a declaration's own ancestors. -/
def TypeSymbol.supertypes (symbol : TypeSymbol) : List Text := symbol.parents ++ symbol.interfaces

namespace Declaration

/-- The sort of type that a keyword declares. -/
def sortOf? : Kind → Option TypeSort
  | .keyword .kwClass => some .classType
  | .keyword .kwInterface => some .interfaceType
  | .keyword .kwTrait => some .traitType
  | _ => none

/-- Where a list of names goes on after a name that ends before index `after`. -/
def nextInList? (s : TokenStream) (after : Nat) : Option Nat := do
  let separator ← s.findNext Kind.isSignificant after
  if s.isAt separator .comma then s.nextSignificant separator else none

/-- The next name of a list starts behind the one before it. -/
theorem lt_of_nextInList? {s : TokenStream} {after next : Nat}
    (h : nextInList? s after = some next) : after < next ∧ next < s.size := by
  simp only [nextInList?, Option.bind_eq_bind, Option.bind_eq_some_iff] at h
  obtain ⟨separator, h1, h2⟩ := h
  have := (TokenStream.findNext_eq_some_iff.1 h1).1
  split at h2
  · have := TokenStream.lt_of_nextSignificant h2
    omega
  · simp at h2

/-- The names of a list from index `start` on, separated by commas. -/
def namesFrom (s : TokenStream) (start : Nat) : List Text :=
  match _h : s.readName? start with
  | none => []
  | some (name, after) =>
    match _h' : nextInList? s after with
    | none => [name]
    | some next => name :: namesFrom s next
termination_by s.size - start
decreasing_by
  have := TokenStream.lt_of_readName? _h
  have := lt_of_nextInList? _h'
  omega

/-- The full names listed after the keyword at an index. -/
def namesAfter (s : TokenStream) (scope : NameScope) (keyword : Nat) : List Text :=
  match s.nextSignificant keyword with
  | some start => (namesFrom s start).map (scope.qualify · keyword)
  | none => []

/-- The names listed after the last keyword of a sort between two indices. -/
def listedIn (s : TokenStream) (scope : NameScope) (p : Kind → Bool) (start stop : Nat) :
    List Text :=
  match (List.range' start (stop - start)).reverse.find? (s.has · p) with
  | some keyword => namesAfter s scope keyword
  | none => []

/-- What the body's cursor finds at an index. -/
inductive Member
  | method (name : Text)
  | traits (names : List Text)
  | other
  deriving DecidableEq, Repr

/-- The keyword at the index starts a function with a name. -/
def startsMethod (s : TokenStream) (i : Nat) : Bool :=
  s.isAt i (.keyword .kwFunction) && !s.isClosure i

/-- The member of a type that starts at an index of its body. -/
def memberAt (s : TokenStream) (scope : NameScope) (i : Nat) : Member :=
  if startsMethod s i then
    match s.declaredName? i with
    | some name => .method name
    | none => .other
  else if s.isAt i (.keyword .kwUse) then .traits (namesAfter s scope i)
  else .other

/-- The last index of the member at an index: the end of a method's body, or of its declaration. -/
def memberEnd (s : TokenStream) (closer i : Nat) : Nat :=
  if startsMethod s i then
    match s.bodyCloser? i with
    | some bodyEnd => bodyEnd
    | none => (s.findNext (· == .semicolon) i).getD closer
  else i

/-- Where the cursor goes after an index of a body. -/
def memberNext (s : TokenStream) (closer i : Nat) : Nat := memberEnd s closer i + 1

/-- The cursor of a body only goes forward. -/
theorem lt_memberNext {s : TokenStream} {closer i : Nat} (hi : i < closer) :
    i < memberNext s closer i := by
  simp only [memberNext, memberEnd]
  split
  · split
    · next h =>
      have := TokenStream.lt_of_bodyCloser? h
      omega
    · cases hf : s.findNext (· == .semicolon) i with
      | none => simp only [Option.getD_none]; omega
      | some j =>
        have := (TokenStream.findNext_eq_some_iff.1 hf).1
        simp only [Option.getD_some]
        omega
  · omega

/-- The members of a body from index `i` to its closing brace. -/
def membersFrom (s : TokenStream) (scope : NameScope) (closer i : Nat) : List Member :=
  if i < closer then
    memberAt s scope i :: membersFrom s scope closer (memberNext s closer i)
  else []
termination_by closer - i
decreasing_by
  have := @lt_memberNext s closer i
  omega

/-- The method that a member declares. -/
def Member.method? : Member → Option Text
  | method name => some name
  | _ => none

/-- The traits that a member uses. -/
def Member.traitNames : Member → List Text
  | traits names => names
  | _ => []

/-- The type that the keyword at an index declares. -/
def read? (s : TokenStream) (scope : NameScope) (i : Nat) : Option TypeSymbol := do
  let sort ← (s.kind? i).bind sortOf?
  let shortName ← s.declaredName? i
  let (opener, closer) ← s.body? i
  let isInterface := sort = .interfaceType
  let isExtends (k : Kind) := k == .keyword .kwExtends
  let isImplements (k : Kind) := k == .keyword .kwImplements
  let members := membersFrom s scope closer (opener + 1)
  some {
    name := scope.qualify shortName i
    sort
    parents := if isInterface then [] else listedIn s scope isExtends i opener
    interfaces :=
      listedIn s scope (fun k => isImplements k || isInterface && isExtends k) i opener
    traits := members.flatMap Member.traitNames
    methods := members.filterMap Member.method?
  }

/-- The types that a file declares, in the order of their keywords. -/
def ofStream (s : TokenStream) : List TypeSymbol :=
  let scope := NameScope.ofStream s
  ((List.range s.size).filter s.isTypeDeclaration).filterMap (read? s scope)

end Declaration

end PhpLint

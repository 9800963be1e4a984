import PhpLint.Sniff
import PhpLint.Sniff.ReturnType
import PhpLint.Symbol.Ancestry

/-!
# Comments of functions

Every function with a name has a doc comment right above it, and the comment has one return tag
whose type fits what the body returns.  Four things soften the rule:

* the methods of a test class that are tests need no comment,
* a constructor and a destructor need no return tag,
* a comment that inherits another one is checked no further, unless all ancestors of the method's
  class are known and none of them declares the method,
* a function without a body, or of type `mixed`, or one of whose types is `void` among others, may
  return anything.

The statements that return are those of the function itself: the cursor that collects them jumps
over the bodies of closures and anonymous classes.
-/

namespace PhpLint.FunctionComment

/-- The comment of a function is searched behind white space and modifiers. -/
def hidesComment (k : Kind) : Bool := k != .whitespace && !k.isModifier

/-- The token that ends the comment above the function at an index.  A comment that trails other
code on its line belongs to that code. -/
def commentEnd? (s : TokenStream) (i : Nat) : Option Nat := do
  let nearest ← s.findBefore hidesComment i
  let last :=
    if s.isAt nearest .comment then
      match s.findBefore hidesComment nearest with
      | some previous => if s.line previous = s.line nearest then previous else nearest
      | none => nearest
    else nearest
  if s.isAt last (.closes .docComment) || s.isAt last .comment then some last else none

/-- The modifiers before the function at an index, nearest first. -/
def modifiersBefore (s : TokenStream) (i : Nat) : List Kind :=
  match _h : s.previousSignificant i with
  | none => []
  | some previous =>
    match s.kind? previous with
    | some k => if k.isModifier then k :: modifiersBefore s previous else []
    | none => []
termination_by i
decreasing_by exact (TokenStream.lt_of_findBefore _h).1

/-- The classes that the tests of a project extend. -/
def defaultTestClasses : List Text :=
  ["PHPUnit_Framework_TestCase".toList, "PHPUnit\\Framework\\TestCase".toList]

/-- The function is a public test of a test class.  A class whose ancestors are not all known
counts as one in the file of a test. -/
def isTestMethod (testClasses : List Text) (ctx : FileContext) (i : Nat) : Bool :=
  let s := ctx.stream
  let modifiers := modifiersBefore s i
  let named := (s.declaredName? i).any fun name =>
    Text.startsWith "test".toList (Text.foldCase name)
  let hidden := modifiers.any fun k =>
    k == .keyword .kwProtected || k == .keyword .kwPrivate || k == .keyword .kwAbstract
  named && !hidden && (ctx.symbols.typeAt? s i).any fun symbol =>
    let ancestry := ctx.symbols.ancestors symbol.name
    testClasses.any ancestry.has || !ancestry.complete && ctx.isTest

/-- The keyword at the index starts a closure or an anonymous class. -/
def startsNested (s : TokenStream) (i : Nat) : Bool := s.isClosure i || s.isAnonymousClass i

/-- A statement that may return a value. -/
def isReturn (k : Kind) : Bool :=
  k == .keyword .kwReturn || k == .keyword .kwYield || k == .yieldFrom

/-- The end of the nested body that starts at an index. -/
def nestedEnd? (s : TokenStream) (i : Nat) : Option Nat :=
  if startsNested s i then s.bodyCloser? i else none

/-- The statements that return between two indices, nested bodies left out. -/
def returnsFrom (s : TokenStream) (stop i : Nat) : List Nat :=
  if i < stop then
    match _h : nestedEnd? s i with
    | some closer => returnsFrom s stop (closer + 1)
    | none => (if s.has i isReturn then [i] else []) ++ returnsFrom s stop (i + 1)
  else []
termination_by stop - i
decreasing_by
  · have : i < closer := by
      simp only [nestedEnd?] at _h
      split at _h
      · exact TokenStream.lt_of_bodyCloser? _h
      · simp at _h
    omega
  · omega

/-- The statement returns a value: no semicolon follows it. -/
def returnsValue (s : TokenStream) (statement : Nat) : Bool :=
  (s.findNext (· != .whitespace) (statement + 1)).all fun next => !s.isAt next .semicolon

/-- The findings about a body, given the type that the return tag says. -/
def bodyFindings (type : Text) (s : TokenStream) (tag : Nat) (statements : List Nat) :
    List Finding :=
  if type = "void".toList then
    match statements.find? (returnsValue s) with
    | some statement =>
      [{ index := tag, reason := "InvalidReturnVoid",
         message := "Function return type is void, but function contains return statement",
         labels := [(statement, "value returned here")] }]
    | none => []
  else if type = "mixed".toList ∨ "void".toList ∈ ReturnType.alternatives type then []
  else
    match statements with
    | [] =>
      [{ index := tag, reason := "InvalidNoReturn",
         message := "Function return type is not void, but function has no return statement" }]
    | first :: _ =>
      if returnsValue s first then []
      else
        [{ index := first, reason := "InvalidReturnNotVoid",
           message := "Function return type is not void, but function is returning void here",
           labels := [(tag, s!"declared as `{String.ofList type}`")] }]

/-- The text of the tag at an index: it stands after the white space that follows the tag. -/
def tagText? (s : TokenStream) (tag : Nat) : Option Text :=
  (s.token? (tag + 2)).bind fun t =>
    if t.kind = .docText ∧ t.content ≠ [] then some t.content else none

/-- A method whose comment needs no return tag. -/
def isSpecial (name : Text) : Bool :=
  name == "__construct".toList || name == "__destruct".toList

/-- The findings about the return tags in a function's comment. -/
def returnFindings (s : TokenStream) (i closer : Nat) (tags : List Nat) : List Finding :=
  match tags.filter (s.content · == "@return".toList) with
  | first :: duplicate :: _ =>
    [{ index := duplicate, reason := "DuplicateReturn",
       message := "Only 1 @return tag is allowed in a function comment",
       labels := [(first, "first @return tag")] }]
  | returns =>
    if isSpecial ((s.declaredName? i).getD []) then []
    else match returns with
      | [] =>
        [{ index := closer, reason := "MissingReturn",
           message := "Missing @return tag in function comment" }]
      | tag :: _ =>
        match tagText? s tag with
        | none =>
          [{ index := tag, reason := "MissingReturnType",
             message := "Return type missing for @return tag in function comment" }]
        | some text =>
          match s.bodyCloser? i with
          | none => []
          | some bodyEnd =>
            bodyFindings (ReturnType.ofText text) s tag (returnsFrom s bodyEnd (i + 1))

/-- The findings about references to other places that say nothing. -/
def seeFindings (s : TokenStream) (closer : Nat) (tags : List Nat) : List Finding :=
  let described (tag : Nat) := (s.findNextBefore (· == .docText) tag closer).any fun text =>
    s.line text == s.line tag
  (tags.filter fun tag => s.content tag == "@see".toList && !described tag).map fun tag =>
    { index := tag, reason := "EmptySees",
      message := "Content missing for @see tag in function comment" }

/-- An ancestor of the method's class declares the method; `none` when that cannot be told. -/
def overrides (ctx : FileContext) (i : Nat) : Option Bool := do
  let method ← ctx.stream.declaredName? i
  let symbol ← ctx.symbols.typeAt? ctx.stream i
  ctx.symbols.inheritsMethod symbol.name method

/-- The findings in the doc comment from `opener` to `closer` above the function at an index. -/
def docFindings (ctx : FileContext) (i opener closer : Nat) : List Finding :=
  let s := ctx.stream
  let tags := s.docTags opener
  let returns := returnFindings s i closer tags
  seeFindings s closer tags ++
    if Text.includes "@inheritdoc".toList (s.textBetween opener closer) then
      match overrides ctx i with
      | some false =>
        { index := opener, reason := "InvalidInheritdoc",
          message := "No override method found for \x7b@inheritdoc\x7d annotation" } :: returns
      | _ => []
    else returns

/-- The findings at the function keyword at an index. -/
def findings (testClasses : List Text) (ctx : FileContext) (i : Nat) : List Finding :=
  let s := ctx.stream
  if s.isClosure i then []
  else match commentEnd? s i with
    | none =>
      if isTestMethod testClasses ctx i then []
      else [{ index := i, reason := "Missing", message := "Missing function doc comment" }]
    | some closer =>
      if s.isAt closer .comment then
        [{ index := i, reason := "WrongStyle",
           message := "You must use \"/**\" style comments for a function comment" }]
      else
        let spacing : List Finding :=
          if s.line closer + 1 = s.line i then []
          else
            [{ index := closer, reason := "SpacingAfter",
               message := "There must be no blank lines after the function comment" }]
        spacing ++ match s.partner? closer with
          | some opener => docFindings ctx i opener closer
          | none => []

/-- The check for the comments of functions. -/
def sniff (severity : Severity) (testClasses : List Text) : Sniff where
  name := "function-comment"
  code := "PS002"
  description := "Requires doc comments on functions with a consistent @return tag"
  severity
  listensTo := [.keyword .kwFunction]
  findings := findings testClasses

end PhpLint.FunctionComment

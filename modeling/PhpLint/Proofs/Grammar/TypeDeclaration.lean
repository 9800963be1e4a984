import PhpLint.Proofs.Grammar.Pieces
import PhpLint.Proofs.Scopes.OwnBody
import PhpLint.Symbol.Declaration

/-!
# Written declarations

A class, interface or trait declaration as it is written: a keyword, a name, perhaps a list of names
after `extends` and one after `implements`, and a body of members between braces.  A member uses
traits, or is a method, or is anything else without a `function` or `use` keyword, such as a property,
a constant or the layout between members.

`TypeDeclaration.pieces` is the pattern of such a declaration in a stream, and
`TypeDeclaration.symbol` what is to be known of it: its names in full, each resolved where its list or
its keyword stands.
-/

namespace PhpLint.Grammar

/-- White space and comments. -/
abbrev Gap := Stretch Kind.isTrivia

/-- A word of letters, digits and underscores, no digit in front.  Behind a separator the lexer takes
every such word for a plain one, however it is spelled. -/
structure Word where
  text : Text
  shaped : (text.head?.any isNameStart && text.all isNameChar) = true := by decide

/-- A word that is no keyword where it stands. -/
def Word.piece (w : Word) : Piece := ⟨.identifier, some w.text⟩

/-- A qualified name: words with separators between, perhaps one in front. -/
structure Name where
  absolute : Bool
  first : Word
  more : List Word

namespace Name

/-- How the name is written. -/
def text (n : Name) : Text :=
  (if n.absolute then ['\\'] else []) ++ (n.first.text ++ n.more.flatMap fun w => '\\' :: w.text)

/-- The tokens of the name. -/
def pieces (n : Name) : List Piece :=
  (if n.absolute then [{ kind := .backslash }] else []) ++
    n.first.piece :: n.more.flatMap fun w => [{ kind := .backslash }, w.piece]

end Name

/-- Names with commas between. -/
structure Names where
  first : Name
  /-- The further names, each with the gaps around the comma in front of it. -/
  more : List (Gap × Gap × Name)

namespace Names

/-- How the names are written. -/
def texts (ns : Names) : List Text := ns.first.text :: ns.more.map fun (_, _, n) => n.text

/-- The tokens of a comma and a name. -/
def morePieces : Gap × Gap × Name → List Piece
  | (before, after, n) => before.pieces ++ { kind := .comma } :: (after.pieces ++ n.pieces)

/-- The tokens of the list. -/
def pieces (ns : Names) : List Piece := ns.first.pieces ++ ns.more.flatMap morePieces

end Names

/-- A list of names after a keyword. -/
structure Clause where
  before : Gap
  after : Gap
  names : Names

namespace Clause

/-- The tokens of the clause. -/
def pieces (keyword : Keyword) (c : Clause) : List Piece :=
  c.before.pieces ++ { kind := .keyword keyword } :: (c.after.pieces ++ c.names.pieces)

/-- The full names of a clause that starts at an index. -/
def fullNames (scope : NameScope) (i : Nat) (c : Clause) : List Text :=
  c.names.texts.map (scope.qualify · (i + c.before.pieces.length))

/-- The tokens of a clause that may be missing. -/
def piecesOf (keyword : Keyword) : Option Clause → List Piece
  | none => []
  | some c => c.pieces keyword

/-- The full names of a clause that may be missing. -/
def fullNamesOf (scope : NameScope) (i : Nat) : Option Clause → List Text
  | none => []
  | some c => c.fullNames scope i

end Clause

/-- A kind that is no `function` or `use` keyword. -/
def isQuiet (k : Kind) : Bool := k != .keyword .kwFunction && k != .keyword .kwUse

/-- A kind in front of a method's keyword. -/
def isBeforeMethod (k : Kind) : Bool := k.isModifier || k.isTrivia

/-- A kind that is no brace in front of a body and no semicolon. -/
def isHeader (k : Kind) : Bool := !TokenStream.endsHeader k

/-- The tokens of a block in braces, or of the semicolon in its place. -/
def blockPieces {f : Kind → Bool} : Option (Stretch f) → List Piece
  | none => [{ kind := .semicolon }]
  | some block => { kind := .opens .curly } :: (block.pieces ++ [{ kind := .closes .curly }])

/-- A trait use: names, and a semicolon or a block that adapts what is used. -/
structure TraitUse where
  after : Gap
  names : Names
  before : Gap
  block? : Option (Stretch isQuiet)

/-- The tokens of a trait use. -/
def TraitUse.pieces (u : TraitUse) : List Piece :=
  { kind := .keyword .kwUse } ::
    (u.after.pieces ++ (u.names.pieces ++ (u.before.pieces ++ blockPieces u.block?)))

/-- A method, with a semicolon in the place of a body that it does not have. -/
structure Method where
  modifiers : Stretch isBeforeMethod
  after : Gap
  /-- The reference sign's gap, if there is such a sign. -/
  reference? : Option Gap
  name : Word
  before : Gap
  parameters : Stretch isHeader
  /-- The colon and the type behind it, whose parentheses are closed, or nothing. -/
  returns : Stretch isHeader
  body? : Option (Stretch fun _ => true)

namespace Method

/-- The tokens between the keyword and the name. -/
def nameFront (m : Method) : List Piece :=
  m.after.pieces ++
    match m.reference? with
    | none => []
    | some gap => ⟨.operator, some ['&']⟩ :: gap.pieces

/-- The tokens between the keyword and the parameters. -/
def head (m : Method) : List Piece := m.nameFront ++ m.name.piece :: m.before.pieces

/-- The tokens from the keyword on. -/
def fromKeyword (m : Method) : List Piece :=
  { kind := .keyword .kwFunction } :: (m.head ++ { kind := .opens .round } ::
    (m.parameters.pieces ++ { kind := .closes .round } ::
      (m.returns.pieces ++ blockPieces m.body?)))

/-- The tokens of a method. -/
def pieces (m : Method) : List Piece := m.modifiers.pieces ++ m.fromKeyword

end Method

/-- A member of a type. -/
inductive Member
  | use (traits : TraitUse)
  | method (m : Method)
  | other (code : Stretch isQuiet)

namespace Member

/-- The tokens of a member. -/
def pieces : Member → List Piece
  | use u => u.pieces
  | method m => m.pieces
  | other code => code.pieces

/-- The full names of the traits that a member at an index uses. -/
def traits (scope : NameScope) (i : Nat) : Member → List Text
  | use u => u.names.texts.map (scope.qualify · i)
  | _ => []

/-- The name of the method that a member declares. -/
def method? : Member → Option Text
  | method m => some m.name.text
  | _ => none

/-- The full names of the traits that members from an index on use. -/
def traitsFrom (scope : NameScope) : Nat → List Member → List Text
  | _, [] => []
  | i, m :: ms => m.traits scope i ++ traitsFrom scope (i + m.pieces.length) ms

end Member

/-- The keyword of a declaration. -/
def keywordOf : TypeSort → Keyword
  | .classType => .kwClass
  | .interfaceType => .kwInterface
  | .traitType => .kwTrait

/-- A declaration of a type. -/
structure TypeDeclaration where
  sort : TypeSort
  after : Gap
  name : Word
  extends? : Option Clause
  implements? : Option Clause
  before : Gap
  members : List Member

namespace TypeDeclaration

/-- The tokens of the keyword and the name. -/
def front (d : TypeDeclaration) : List Piece :=
  { kind := .keyword (keywordOf d.sort) } :: (d.after.pieces ++ [d.name.piece])

/-- The tokens of the names after `extends`. -/
def extendsPieces (d : TypeDeclaration) : List Piece :=
  Clause.piecesOf .kwExtends d.extends?

/-- The tokens of the names after `implements`. -/
def implementsPieces (d : TypeDeclaration) : List Piece :=
  Clause.piecesOf .kwImplements d.implements?

/-- The tokens in front of the body. -/
def header (d : TypeDeclaration) : List Piece :=
  d.front ++ (d.extendsPieces ++ (d.implementsPieces ++ d.before.pieces))

/-- The tokens of the body, without its braces. -/
def body (d : TypeDeclaration) : List Piece := d.members.flatMap Member.pieces

/-- The tokens of the declaration. -/
def pieces (d : TypeDeclaration) : List Piece :=
  d.header ++ { kind := .opens .curly } :: (d.body ++ [{ kind := .closes .curly }])

/-- The full names after `extends`, for a declaration at an index. -/
def extended (scope : NameScope) (i : Nat) (d : TypeDeclaration) : List Text :=
  Clause.fullNamesOf scope (i + d.front.length) d.extends?

/-- The full names after `implements`, for a declaration at an index. -/
def implemented (scope : NameScope) (i : Nat) (d : TypeDeclaration) : List Text :=
  Clause.fullNamesOf scope (i + d.front.length + d.extendsPieces.length) d.implements?

/-- What is to be known of a declaration at an index.  Of an interface with both lists only the second
one counts. -/
def symbol (scope : NameScope) (i : Nat) (d : TypeDeclaration) : TypeSymbol where
  name := scope.qualify d.name.text i
  sort := d.sort
  parents := if d.sort = .interfaceType then [] else d.extended scope i
  interfaces :=
    if d.sort = .interfaceType ∧ d.implements?.isNone then d.extended scope i
    else d.implemented scope i
  traits := Member.traitsFrom scope (i + d.header.length + 1) d.members
  methods := d.members.filterMap Member.method?

end TypeDeclaration

end PhpLint.Grammar

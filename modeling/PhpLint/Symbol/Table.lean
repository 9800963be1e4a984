import PhpLint.Symbol.Declaration

/-!
# The symbol table

The declarations of all files that are checked together, in the order in which they were added.
Names are compared up to the case of ASCII letters, and of several declarations with one name the
last one counts: `get?_append` says so for the files added later.
-/

namespace PhpLint

/-- The declarations of several files, the last one of each name in force. -/
structure SymbolTable where
  symbols : List TypeSymbol
  deriving Repr

namespace SymbolTable

/-- The table without declarations. -/
def empty : SymbolTable := ⟨[]⟩

/-- The table with the declarations of one more file. -/
def addFile (t : SymbolTable) (s : TokenStream) : SymbolTable :=
  ⟨t.symbols ++ Declaration.ofStream s⟩

/-- The table of several files. -/
def ofStreams (streams : List TokenStream) : SymbolTable := streams.foldl addFile empty

/-- The declaration in force for a name, separators in front of it not counted. -/
def get? (t : SymbolTable) (name : Text) : Option TypeSymbol :=
  t.symbols.reverse.find? (Text.sameLetters ·.name (stripLeading name))

/-- The number of different names. -/
def size (t : SymbolTable) : Nat := (t.symbols.map (Text.foldCase ·.name)).eraseDups.length

/-- A declaration that is added later counts before the earlier ones of its name. -/
theorem get?_append (xs ys : List TypeSymbol) (name : Text) :
    (SymbolTable.mk (xs ++ ys)).get? name =
      ((SymbolTable.mk ys).get? name).or ((SymbolTable.mk xs).get? name) := by
  simp [get?, List.find?_append]

/-- The index of the keyword of the innermost named type around an index. -/
def keywordAround? (s : TokenStream) (i : Nat) : Option Nat :=
  (List.range i).reverse.find? fun k =>
    s.isTypeDeclaration k && (s.body? k).any (TokenStream.inside i)

/-- The innermost named type whose body holds an index. -/
def typeAt? (t : SymbolTable) (s : TokenStream) (i : Nat) : Option TypeSymbol := do
  let keyword ← keywordAround? s i
  let shortName ← s.declaredName? keyword
  t.get? ((NameScope.ofStream s).qualify shortName keyword)

/-- The innermost named type around an index, which may lie just past the last token but no
further: every index before it is looked at. -/
def typeAtChecked (t : SymbolTable) (s : TokenStream) (i : Nat) :
    Except OutOfRange (Option TypeSymbol) :=
  if i ≤ s.size then .ok (t.typeAt? s i) else .error (.index i)

end SymbolTable

end PhpLint

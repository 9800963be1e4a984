import PhpLint.Proofs.Grammar.Names
import PhpLint.Proofs.Symbols.Enclosing
import PhpLint.Proofs.Text.Lines
import PhpLint.Symbol.Import

/-!
# Written import statements

An import statement as it is written: the keyword, names with commas between, each perhaps with an
alias behind `as`, and a semicolon; or the names in braces, behind the name of the namespace that all
of them lie in, with or without a comma after the last one.

`UseStatement.pieces` is the pattern of such a statement in a stream, and `UseStatement.imports` what it
imports: every name in full, known by its alias or else by its last word.
-/

namespace PhpLint.Grammar

/-! ## Words of a name -/

/-- The last word of a name. -/
def Name.last (n : Name) : Word := n.more.getLast?.getD n.first

/-- The name without a separator in front. -/
def Name.bare (n : Name) : Name := { n with absolute := false }

/-- A text is a word, or ends with a separator and the word. -/
def EndsIn (t : Text) (w : Word) : Prop := t = w.text ∨ ∃ front, t = front ++ '\\' :: w.text

/-- A word holds no separator. -/
theorem Word.not_mem (w : Word) : '\\' ∉ w.text := by
  intro hmem
  have hshaped := w.shaped
  rw [Bool.and_eq_true, List.all_eq_true] at hshaped
  have hchar := hshaped.2 '\\' hmem
  revert hchar
  decide

/-- The last segment of a text that ends in a word is the word. -/
theorem lastSegment_of_endsIn {t : Text} {w : Word} (h : EndsIn t w) : lastSegment t = w.text := by
  have hword := Text.splitOn_of_not_mem w.not_mem
  rcases h with rfl | ⟨front, rfl⟩
  · rw [lastSegment, hword]
    rfl
  · rw [lastSegment, Text.splitOn_append_cons, hword, List.getLast?_concat]
    rfl

/-- A text in front of a separator does not matter to the last word. -/
theorem EndsIn.append {t : Text} {w : Word} (h : EndsIn t w) (front : Text) :
    EndsIn (front ++ '\\' :: t) w := by
  rcases h with rfl | ⟨middle, rfl⟩
  · exact .inr ⟨front, rfl⟩
  · exact .inr ⟨front ++ '\\' :: middle, by rw [List.append_assoc, List.cons_append]⟩

namespace Name

/-- A name is its separator in front, if it has one, and the rest. -/
theorem text_eq_append (q : Name) : q.text = (if q.absolute then ['\\'] else []) ++ q.bare.text := rfl

/-- A name without the separator in front ends in its last word. -/
theorem endsIn_bare (q : Name) : EndsIn q.bare.text q.last := by
  obtain ⟨absolute, first, more⟩ := q
  rcases List.eq_nil_or_concat' more with rfl | ⟨ws, w, rfl⟩
  · exact .inl (List.append_nil first.text)
  · refine .inr ⟨first.text ++ ws.flatMap fun w => '\\' :: w.text, ?_⟩
    have hlast : last ⟨absolute, first, ws ++ [w]⟩ = w := by rw [last, List.getLast?_concat]; rfl
    rw [hlast, List.append_assoc]
    simp [bare, text]

/-- The separators in front of a name are the one that it is written with. -/
theorem stripLeading_text (q : Name) : stripLeading q.text = q.bare.text := by
  have hbare : stripLeading q.bare.text = q.bare.text := by
    refine SymbolTable.stripLeading_of_head?_ne fun hhead => q.first.not_mem ?_
    rw [bare, text, if_neg Bool.false_ne_true, List.nil_append,
      List.head?_append_of_ne_nil _ q.first.ne_nil] at hhead
    exact List.mem_of_mem_head? hhead
  rw [text_eq_append]
  cases q.absolute with
  | true => exact hbare
  | false => exact hbare

end Name

/-! ## Statements -/

/-- An alias, behind the word `as` in any case. -/
structure Alias where
  before : Gap
  /-- Something stands between the name and the word. -/
  separated : before.kinds.isEmpty = false := by decide
  keyword : Text
  spelled : Text.sameLetters keyword "as".toList = true := by decide
  after : Gap
  name : Word

/-- The tokens of an alias. -/
def Alias.pieces (a : Alias) : List Piece :=
  a.before.pieces ++ ⟨.identifier, some a.keyword⟩ :: (a.after.pieces ++ [a.name.piece])

/-- A name to be imported, perhaps under an alias. -/
structure ImportClause where
  name : Name
  alias? : Option Alias

namespace ImportClause

/-- The tokens of an alias that may be missing. -/
def aliasPieces : Option Alias → List Piece
  | none => []
  | some a => a.pieces

/-- The tokens of the name and its alias. -/
def pieces (c : ImportClause) : List Piece := c.name.pieces ++ aliasPieces c.alias?

/-- What the name is known by: its alias, or else its last word. -/
def shortName (c : ImportClause) : Text := (c.alias?.elim c.name.last Alias.name).text

end ImportClause

/-- Names with commas between. -/
structure ImportClauses where
  first : ImportClause
  /-- The further names, each with the gaps around the comma in front of it. -/
  more : List (Gap × Gap × ImportClause)

namespace ImportClauses

/-- The names in order. -/
def all (cs : ImportClauses) : List ImportClause := cs.first :: cs.more.map fun (_, _, c) => c

/-- The tokens of a comma and a name. -/
def morePieces : Gap × Gap × ImportClause → List Piece
  | (before, after, c) => before.pieces ++ { kind := .comma } :: (after.pieces ++ c.pieces)

/-- The tokens of the list. -/
def pieces (cs : ImportClauses) : List Piece := cs.first.pieces ++ cs.more.flatMap morePieces

/-- A list starts with a piece that is code, the first one of a name. -/
theorem exists_cons (cs : ImportClauses) :
    ∃ p ps, cs.pieces = p :: ps ∧ p.kind.isSignificant = true := by
  obtain ⟨p, ps, hpieces, hcode⟩ := cs.first.name.exists_cons
  rw [pieces, ImportClause.pieces, hpieces]
  exact ⟨p, _, rfl, hcode⟩

end ImportClauses

/-- The braces around the names of a group, with the namespace in front of them. -/
structure GroupFrame where
  name : Name
  relative : name.absolute = false := by decide
  inside : Gap
  /-- The gap in front of a comma behind the last name, if there is such a comma. -/
  trailing? : Option Gap
  before : Gap

namespace GroupFrame

/-- The tokens of a comma behind the last name. -/
def trailingPieces : Option Gap → List Piece
  | none => []
  | some gap => gap.pieces ++ [{ kind := .comma }]

/-- The tokens in front of the first name. -/
def front (g : GroupFrame) : List Piece :=
  g.name.pieces ++ { kind := .backslash } :: { kind := .opens .curly } :: g.inside.pieces

/-- The tokens behind the last name. -/
def back (g : GroupFrame) : List Piece :=
  trailingPieces g.trailing? ++ (g.before.pieces ++ [{ kind := .closes .curly }])

end GroupFrame

/-- An import statement. -/
structure UseStatement where
  after : Gap
  group? : Option GroupFrame
  clauses : ImportClauses
  before : Gap

namespace UseStatement

/-- The tokens between the keyword and the end of the statement, without the gaps there. -/
def inner (u : UseStatement) : List Piece :=
  match u.group? with
  | none => u.clauses.pieces
  | some g => g.front ++ (u.clauses.pieces ++ g.back)

/-- The tokens of the statement. -/
def pieces (u : UseStatement) : List Piece :=
  { kind := .keyword .kwUse } ::
    (u.after.pieces ++ (u.inner ++ (u.before.pieces ++ [{ kind := .semicolon }])))

/-- The name behind the keyword: the first one, or that of the group. -/
def leading (u : UseStatement) : Name := u.group?.elim u.clauses.first.name GroupFrame.name

/-- The full name that a name of the statement stands for. -/
def target (u : UseStatement) (c : ImportClause) : Text :=
  match u.group? with
  | none => c.name.bare.text
  | some g => g.name.text ++ '\\' :: c.name.bare.text

/-- The imports of a statement at an index. -/
def imports (u : UseStatement) (i : Nat) : List Import :=
  u.clauses.all.map fun c => ⟨i, c.shortName, u.target c⟩

/-- The statement imports types, and writes the names of a group without a separator in front. -/
structure ImportsTypes (u : UseStatement) : Prop where
  leading : u.leading.absolute = true ∨ Import.isForeign u.leading.first.text = false
  group : u.group?.isSome → ∀ c ∈ u.clauses.all, c.name.absolute = false

end UseStatement

end PhpLint.Grammar

import PhpLint.Proofs.Grammar.Members

/-!
# Written declarations are read

The header of a declaration holds one `extends` and one `implements` at most, and no brace and no
semicolon, so the look-up of the body takes the brace behind it and each list is found at its keyword.
The brackets of every member are closed, so the brace at the end of the declaration is the partner of
that brace, and the cursor of the body goes over the members up to it.  Together
`read?_pieces` says that the reading of a written declaration is exact, whatever stands around it.
-/

namespace PhpLint.Grammar

open Declaration (listedIn namesAfter)
open TokenStream (holds_cons_iff holds_append_iff findNext_piece endsHeader isFunctionKeyword)

variable {s : TokenStream} {scope : NameScope} {i : Nat} {xs ys ps : List Piece} {f : Kind → Bool}

/-! ## Lists between two indices -/

/-- Nothing is listed where the keyword does not stand. -/
theorem listedIn_of_not_fits (h : s.holds i xs = true) (hxs : ∀ p ∈ xs, f p.kind = false) :
    listedIn s scope f i (i + xs.length) = [] := by
  have hnone : (List.range' i xs.length).reverse.find? (s.has · f) = none := by
    rw [List.find?_eq_none]
    intro k hk
    rw [TokenStream.not_has_of_holds h hxs k (List.mem_reverse.1 hk)]
    exact Bool.false_ne_true
  rw [listedIn, Nat.add_sub_cancel_left, hnone]

/-- What is listed stands behind the last keyword. -/
theorem listedIn_of_last {p : Piece} (h : s.holds i (xs ++ p :: ys) = true) (hp : f p.kind = true)
    (hys : ∀ q ∈ ys, f q.kind = false) :
    listedIn s scope f i (i + (xs ++ p :: ys).length) = namesAfter s scope (i + xs.length) := by
  obtain ⟨-, hback⟩ := holds_append_iff.1 h
  obtain ⟨hat, -, hbehind⟩ := holds_cons_iff.1 hback
  have hfits : s.has (i + xs.length) f = true := by rw [TokenStream.has_of_isAt hat, hp]
  have hnone : (List.range' (i + xs.length + 1) ys.length).reverse.find? (s.has · f) = none := by
    rw [List.find?_eq_none]
    intro k hk
    rw [TokenStream.not_has_of_holds hbehind hys k (List.mem_reverse.1 hk)]
    exact Bool.false_ne_true
  have hfound : (List.range' i (xs ++ p :: ys).length).reverse.find? (s.has · f) =
      some (i + xs.length) := by
    rw [List.length_append, List.length_cons, ← List.range'_append_1, List.range'_succ,
      List.reverse_append, List.reverse_cons, List.find?_append, List.find?_append, hnone,
      List.find?_cons, hfits]
    rfl
  rw [listedIn, Nat.add_sub_cancel_left, hfound]

/-! ## Clauses -/

namespace Clause

variable (c : Clause) {w : Keyword}

/-- A clause consists of its keyword and of what may stand in a list of names. -/
theorem isInNames_or_eq_of_mem_pieces {p : Piece} (hp : p ∈ c.pieces w) :
    p.kind.isInNames = true ∨ p.kind = .keyword w := by
  rcases List.mem_append.1 hp with hp | hp
  · exact .inl (isInNames_of_mem_gap hp)
  rcases List.mem_cons.1 hp with rfl | hp
  · exact .inr rfl
  rcases List.mem_append.1 hp with hp | hp
  · exact .inl (isInNames_of_mem_gap hp)
  · exact .inl (c.names.isInNames_of_mem_pieces hp)

/-- Pieces of a clause do not fit what its keyword does not. -/
theorem not_fits_of_mem_piecesOf (c? : Option Clause) (hplain : ∀ k, k.isInNames = true → f k = false)
    (hw : f (.keyword w) = false) : ∀ p ∈ piecesOf w c?, f p.kind = false := by
  intro p hp
  cases c? with
  | none => cases hp
  | some c =>
    rcases c.isInNames_or_eq_of_mem_pieces hp with hnames | heq
    · exact hplain _ hnames
    · rw [heq, hw]

/-- What is listed where one clause has the keyword is what the clause lists. -/
theorem listedIn_eq (h : s.holds i (xs ++ (c.pieces w ++ ys)) = true) (hw : f (.keyword w) = true)
    (hplain : ∀ k, k.isInNames = true → f k = false) (hys : ∀ q ∈ ys, f q.kind = false) :
    listedIn s scope f i (i + (xs ++ (c.pieces w ++ ys)).length) =
      namesAfter s scope (i + xs.length + c.before.pieces.length) := by
  have hsplit : xs ++ (c.pieces w ++ ys) = (xs ++ c.before.pieces) ++
      { kind := .keyword w } :: (c.after.pieces ++ (c.names.pieces ++ ys)) := by
    simp only [pieces, List.append_assoc, List.cons_append]
  rw [hsplit] at h ⊢
  rw [listedIn_of_last h hw, List.length_append, Nat.add_assoc]
  intro q hq
  rcases List.mem_append.1 hq with hq | hq
  · exact hplain _ (isInNames_of_mem_gap hq)
  rcases List.mem_append.1 hq with hq | hq
  · exact hplain _ (c.names.isInNames_of_mem_pieces hq)
  · exact hys q hq

/-- The names of a clause are read up to what ends them. -/
theorem namesAfter_eq {gap : Gap} {p : Piece}
    (h : s.holds i (c.pieces w ++ (gap.pieces ++ p :: ps)) = true) (hp : p.kind.endsNames = true) :
    namesAfter s scope (i + c.before.pieces.length) = c.fullNames scope i := by
  rw [pieces, List.append_assoc, List.cons_append, List.append_assoc] at h
  obtain ⟨-, -, hbehind⟩ := holds_cons_iff.1 (holds_append_iff.1 h).2
  exact namesAfter_names hbehind hp

/-- **A clause is read** where it stands in a header, if the keyword stands nowhere else in it. -/
theorem listedIn_piecesOf {c? : Option Clause} {gap : Gap} {p : Piece}
    (h : s.holds i (xs ++ (piecesOf w c? ++ ys)) = true)
    (hbehind : s.holds (i + xs.length) (piecesOf w c? ++ (gap.pieces ++ p :: ps)) = true)
    (hp : p.kind.endsNames = true) (hw : f (.keyword w) = true)
    (hplain : ∀ k, k.isInNames = true → f k = false) (hys : ∀ q ∈ ys, f q.kind = false)
    (hnone : c? = none → ∀ q ∈ xs, f q.kind = false) :
    listedIn s scope f i (i + (xs ++ (piecesOf w c? ++ ys)).length) =
      fullNamesOf scope (i + xs.length) c? := by
  cases c? with
  | none =>
    refine listedIn_of_not_fits h fun q hq => ?_
    rcases List.mem_append.1 hq with hq | hq
    · exact hnone rfl q hq
    · exact hys q hq
  | some c =>
    exact (c.listedIn_eq h hw hplain hys).trans (c.namesAfter_eq hbehind hp)

/-- What stands behind the names in front of a clause: its keyword, or what stands behind it. -/
theorem exists_follow (c? : Option Clause) (gap : Gap) {p : Piece} (ps : List Piece)
    (hp : p.kind.endsNames = true) :
    ∃ gap' : Gap, ∃ p' ps', piecesOf w c? ++ (gap.pieces ++ p :: ps) = gap'.pieces ++ p' :: ps' ∧
      p'.kind.endsNames = true := by
  cases c? with
  | none => exact ⟨gap, p, ps, rfl, hp⟩
  | some c =>
    refine ⟨c.before, { kind := .keyword w },
      c.after.pieces ++ (c.names.pieces ++ (gap.pieces ++ p :: ps)), ?_, rfl⟩
    simp only [piecesOf, pieces, List.append_assoc, List.cons_append]

end Clause

/-! ## Headers -/

namespace TypeDeclaration

variable (d : TypeDeclaration)

/-- The keyword of a declaration and its name do not fit what neither that keyword nor a list of names
does. -/
theorem not_fits_front (hplain : ∀ k, k.isInNames = true → f k = false)
    (hw : f (.keyword (keywordOf d.sort)) = false) : ∀ p ∈ d.front, f p.kind = false := by
  intro p hp
  rcases List.mem_cons.1 hp with rfl | hp
  · exact hw
  refine hplain _ ?_
  rcases List.mem_append.1 hp with hp | hp
  · exact isInNames_of_mem_gap hp
  · rw [List.mem_singleton.1 hp]
    rfl

/-- What stands before the body does not fit what no list of names does. -/
theorem not_fits_before (hplain : ∀ k, k.isInNames = true → f k = false) :
    ∀ p ∈ d.before.pieces, f p.kind = false :=
  fun _ hp => hplain _ (isInNames_of_mem_gap hp)

theorem holds_header (h : s.holds i d.pieces = true) : s.holds i d.header = true :=
  (holds_append_iff.1 h).1

/-- The tokens behind the keyword and the name. -/
theorem holds_behind_front (h : s.holds i d.pieces = true) :
    s.holds (i + d.front.length) (d.extendsPieces ++ (d.implementsPieces ++ (d.before.pieces ++
      { kind := .opens .curly } :: (d.body ++ [{ kind := .closes .curly }])))) = true := by
  have hpieces : d.pieces = d.front ++ (d.extendsPieces ++ (d.implementsPieces ++ (d.before.pieces ++
      { kind := .opens .curly } :: (d.body ++ [{ kind := .closes .curly }])))) := by
    simp only [pieces, header, List.append_assoc]
  rw [hpieces] at h
  exact (holds_append_iff.1 h).2

/-- Where the names after `extends` are listed. -/
theorem listedIn_extended (h : s.holds i d.pieces = true) (hextends : f (.keyword .kwExtends) = true)
    (himplements : ∀ p ∈ d.implementsPieces, f p.kind = false)
    (hfront : f (.keyword (keywordOf d.sort)) = false)
    (hplain : ∀ k, k.isInNames = true → f k = false) :
    listedIn s scope f i (i + d.header.length) = d.extended scope i := by
  have hbehind := d.holds_behind_front h
  obtain ⟨gap, p, ps, hfollow, hp⟩ := Clause.exists_follow d.implements? d.before
    (d.body ++ [{ kind := .closes .curly }]) (p := { kind := .opens .curly }) (w := .kwImplements) rfl
  rw [implementsPieces, hfollow] at hbehind
  refine Clause.listedIn_piecesOf (d.holds_header h) hbehind hp hextends hplain (fun q hq => ?_)
    fun _ => d.not_fits_front hplain hfront
  rcases List.mem_append.1 hq with hq | hq
  · exact himplements q hq
  · exact d.not_fits_before hplain q hq

/-- Where the names after `implements` are listed. -/
theorem listedIn_implemented (h : s.holds i d.pieces = true)
    (himplements : f (.keyword .kwImplements) = true)
    (hnone : d.implements? = none → ∀ p ∈ d.front ++ d.extendsPieces, f p.kind = false)
    (hplain : ∀ k, k.isInNames = true → f k = false) :
    listedIn s scope f i (i + d.header.length) = d.implemented scope i := by
  have hheader := d.holds_header h
  have hbehind := (holds_append_iff.1 (d.holds_behind_front h)).2
  have hlength : i + (d.front ++ d.extendsPieces).length =
      i + d.front.length + d.extendsPieces.length := by
    rw [List.length_append, ← Nat.add_assoc]
  rw [← hlength] at hbehind
  rw [implemented, ← hlength]
  unfold header at hheader ⊢
  rw [← List.append_assoc] at hheader ⊢
  exact Clause.listedIn_piecesOf hheader hbehind rfl himplements hplain (d.not_fits_before hplain) hnone

/-! ## Bodies -/

theorem not_endsHeader_of_isInNames {k : Kind} (h : k.isInNames = true) : endsHeader k = false := by
  rw [endsHeader, Kind.beq_eq_false_of h rfl, Kind.beq_eq_false_of h rfl]
  rfl

/-- No brace that opens a body and no semicolon stands in a header. -/
theorem not_endsHeader_of_mem_header : ∀ p ∈ d.header, endsHeader p.kind = false := by
  intro p hp
  have hplain (k : Kind) (hk : k.isInNames = true) : endsHeader k = false :=
    not_endsHeader_of_isInNames hk
  rcases List.mem_append.1 hp with hp | hp
  · exact d.not_fits_front hplain (by cases d.sort <;> rfl) p hp
  rcases List.mem_append.1 hp with hp | hp
  · exact Clause.not_fits_of_mem_piecesOf d.extends? hplain rfl p hp
  rcases List.mem_append.1 hp with hp | hp
  · exact Clause.not_fits_of_mem_piecesOf d.implements? hplain rfl p hp
  · exact d.not_fits_before hplain p hp

/-- The brackets of a body are closed. -/
theorem isClosed_body : IsClosed (d.body.map Piece.kind) := by
  unfold body
  induction d.members with
  | nil => exact IsClosed.nil
  | cons m ms ih =>
    rw [List.flatMap_cons, List.map_append]
    exact m.isClosed_pieces.append ih

/-- The body of a declaration is found between its braces. -/
theorem body?_eq (h : s.holds i d.pieces = true) :
    s.body? i = some (i + d.header.length, i + d.header.length + 1 + d.body.length) := by
  obtain ⟨hheader, hbody⟩ := holds_append_iff.1 h
  have hat := (holds_cons_iff.1 hheader).1
  have hfunction : s.has i isFunctionKeyword = false := by
    rw [TokenStream.has_of_isAt hat]
    cases d.sort <;> rfl
  have hstart : s.bodySearchStart? i = some (i + 1) := by
    rw [TokenStream.bodySearchStart?, hfunction]
    rfl
  have hfound : s.findNext endsHeader i = some (i + d.header.length) :=
    findNext_piece h d.not_endsHeader_of_mem_header rfl
  rw [TokenStream.findNext_of_not_has] at hfound
  · exact TokenStream.body?_eq_some_iff.2 ⟨i + 1, hstart, hfound, (holds_cons_iff.1 hbody).1,
      TokenStream.partner?_of_holds hbody d.isClosed_body⟩
  · rw [TokenStream.has_of_isAt hat]
    cases d.sort <;> rfl

/-- The name of a declaration is found behind its keyword. -/
theorem declaredName?_eq (h : s.holds i d.pieces = true) :
    s.declaredName? i = some d.name.text := by
  have hfront := (holds_append_iff.1 (d.holds_header h)).1
  obtain ⟨-, -, hname⟩ := holds_cons_iff.1 hfront
  exact declaredName?_of_name (findNext_gap hname rfl) (holds_append_iff.1 hname).2

end TypeDeclaration

/-! ## Declarations -/

namespace TypeDeclaration

variable (d : TypeDeclaration)

/-- The sort of a declaration is told by its keyword. -/
theorem sortOf?_eq (h : s.holds i d.pieces = true) :
    (s.kind? i).bind Declaration.sortOf? = some d.sort := by
  have hat := (holds_cons_iff.1 (d.holds_header h)).1
  rw [TokenStream.isAt_iff.1 hat, Option.bind_some]
  cases d.sort <;> rfl

/-- The names after `extends` are listed at that keyword. -/
theorem listedIn_isExtends (h : s.holds i d.pieces = true) :
    listedIn s scope (· == .keyword .kwExtends) i (i + d.header.length) = d.extended scope i := by
  have hplain (k : Kind) (hk : k.isInNames = true) : (k == .keyword .kwExtends) = false :=
    Kind.beq_eq_false_of hk rfl
  refine d.listedIn_extended h rfl (Clause.not_fits_of_mem_piecesOf d.implements? hplain rfl) ?_ hplain
  cases d.sort <;> rfl

/-- The interfaces of an interface without `implements` are those that it extends, and the interfaces
of anything else those that it implements. -/
theorem listedIn_interfaces (h : s.holds i d.pieces = true) :
    listedIn s scope
        (fun k => k == .keyword .kwImplements ||
          decide (d.sort = .interfaceType) && k == .keyword .kwExtends) i (i + d.header.length) =
      if d.sort = .interfaceType ∧ d.implements?.isNone then d.extended scope i
      else d.implemented scope i := by
  have hplain (k : Kind) (hk : k.isInNames = true) :
      (k == .keyword .kwImplements ||
        decide (d.sort = .interfaceType) && k == .keyword .kwExtends) = false := by
    rw [Kind.beq_eq_false_of hk rfl, Kind.beq_eq_false_of hk rfl, Bool.and_false]
    rfl
  have hkeyword : (Kind.keyword (keywordOf d.sort) == .keyword .kwImplements ||
      decide (d.sort = .interfaceType) && Kind.keyword (keywordOf d.sort) == .keyword .kwExtends) =
        false := by
    cases d.sort <;> rfl
  split
  · next hsort =>
    have hempty : d.implementsPieces = [] := by
      rw [implementsPieces, Option.isNone_iff_eq_none.1 hsort.2]
      rfl
    refine d.listedIn_extended h ?_ ?_ hkeyword hplain
    · rw [hsort.1]
      rfl
    · rw [hempty]
      intro p hp
      cases hp
  · next hsort =>
    refine d.listedIn_implemented h rfl (fun hnone p hp => ?_) hplain
    have hother : d.sort ≠ .interfaceType := fun heq => hsort ⟨heq, by rw [hnone]; rfl⟩
    rcases List.mem_append.1 hp with hp | hp
    · exact d.not_fits_front hplain hkeyword p hp
    · refine Clause.not_fits_of_mem_piecesOf d.extends? hplain ?_ p hp
      rw [decide_eq_false hother]
      rfl

/-- The cursor of the body finds the traits and the methods of the members. -/
theorem walks_body (scope : NameScope) (h : s.holds i d.pieces = true) :
    let closer := i + d.header.length + 1 + d.body.length
    Walks s scope closer (i + d.header.length + 1) closer
      (Member.traitsFrom scope (i + d.header.length + 1) d.members)
      (d.members.filterMap Member.method?) := by
  have hbody := (holds_cons_iff.1 (holds_append_iff.1 h).2).2.2
  exact walks_members d.members (holds_append_iff.1 hbody).1 (Nat.le_refl _)

end TypeDeclaration

/-- **Declarations are read exactly.**  Wherever a written declaration stands in a stream, reading it
gives its name, its ancestors, the traits of all of its trait uses and the names of all of its methods,
in the order in which they are written and each name in full; nothing that stands in a body of a method
is among them. -/
theorem read?_pieces (d : TypeDeclaration) (scope : NameScope) (h : s.holds i d.pieces = true) :
    Declaration.read? s scope i = some (d.symbol scope i) := by
  obtain ⟨found, hfound, htraits, hmethods⟩ := d.walks_body scope h
  rw [Declaration.membersFrom_of_not_lt (Nat.lt_irrefl _), List.append_nil] at hfound
  rw [Declaration.read?, d.sortOf?_eq h, d.declaredName?_eq h, d.body?_eq h]
  simp only [Option.bind_eq_bind, Option.bind_some, d.listedIn_isExtends h, d.listedIn_interfaces h,
    hfound, htraits, hmethods]
  rfl

section Samples

/-- One token of white space. -/
def space : Gap where
  kinds := [.whitespace]

/-- No token. -/
def noGap : Gap where
  kinds := []

/-- Names of one word each, each but the first behind a comma and a space. -/
def plainNames (first : Word) (more : List Word) : Names where
  first := ⟨false, first, []⟩
  more := more.map fun w => (noGap, space, ⟨false, w, []⟩)

/-- A class with a member of every sort, and with a `use` and a `function` inside of a method. -/
def sampleClass : TypeDeclaration where
  sort := .classType
  after := space
  name := ⟨['U'], by decide⟩
  extends? := some ⟨space, space, ⟨⟨true, ⟨['B'], by decide⟩, [⟨['C'], by decide⟩]⟩, []⟩⟩
  implements? := some ⟨space, space, plainNames ⟨['I'], by decide⟩ [⟨['J'], by decide⟩]⟩
  before := space
  members := [
    .use ⟨space, plainNames ⟨['T'], by decide⟩ [], noGap, none⟩,
    .other { kinds := [.whitespace, .keyword .kwPrivate, .whitespace, .variableName, .semicolon] },
    .method ⟨{ kinds := [.whitespace, .keyword .kwAbstract, .whitespace] }, space, some noGap,
      ⟨['f'], by decide⟩, noGap, { kinds := [.variableName] }, { kinds := [] }, none⟩,
    .method ⟨{ kinds := [.whitespace] }, space, none, ⟨['g'], by decide⟩, noGap, { kinds := [] },
      { kinds := [.whitespace] },
      some { kinds := [.whitespace, .keyword .kwReturn, .whitespace, .keyword .kwFunction,
        .opens .round, .closes .round, .keyword .kwUse, .opens .round, .variableName, .closes .round,
        .opens .curly, .closes .curly, .semicolon, .whitespace] }⟩]

/-- An interface with both lists. -/
def sampleInterface : TypeDeclaration where
  sort := .interfaceType
  after := space
  name := ⟨['K'], by decide⟩
  extends? := some ⟨space, space, plainNames ⟨['A'], by decide⟩ []⟩
  implements? := some ⟨space, space, plainNames ⟨['B'], by decide⟩ []⟩
  before := space
  members := []

/-- A class in a file with a namespace and an import, read behind both. -/
theorem read?_pieces_class :
    ∃ s, TokenStream.ofSource ("<?php\nnamespace N;\nuse M\\I;\nclass U extends \\B\\C implements I, J " ++
        "\x7buse T; private $a; abstract function &f($b); " ++
        "function g() \x7b return function()use($c)\x7b\x7d; \x7d\x7d").toList = .ok s ∧
      s.holds 13 sampleClass.pieces = true ∧
      sampleClass.symbol (NameScope.ofStream s) 13 = ⟨"N\\U".toList, .classType, ["B\\C".toList],
        ["M\\I".toList, "N\\J".toList], ["N\\T".toList], [['f'], ['g']]⟩ ∧
      Declaration.read? s (NameScope.ofStream s) 13 =
        some (sampleClass.symbol (NameScope.ofStream s) 13) := by
  have hcomputed : (TokenStream.ofSource
      ("<?php\nnamespace N;\nuse M\\I;\nclass U extends \\B\\C implements I, J " ++
        "\x7buse T; private $a; abstract function &f($b); " ++
        "function g() \x7b return function()use($c)\x7b\x7d; \x7d\x7d").toList).map
      (fun s => decide (s.holds 13 sampleClass.pieces = true ∧
        sampleClass.symbol (NameScope.ofStream s) 13 = ⟨"N\\U".toList, .classType, ["B\\C".toList],
          ["M\\I".toList, "N\\J".toList], ["N\\T".toList], [['f'], ['g']]⟩)) = .ok true := by
    decide +kernel
  obtain ⟨s, hs, hall⟩ := TokenStream.exists_of_map_ofSource hcomputed
  have hall := of_decide_eq_true hall
  exact ⟨s, hs, hall.1, hall.2, read?_pieces sampleClass (NameScope.ofStream s) hall.1⟩

/-- Of an interface with both lists the extended one is lost. -/
theorem read?_interface_implements :
    ∃ s, TokenStream.ofSource "<?php\ninterface K extends A implements B \x7b\x7d".toList = .ok s ∧
      s.holds 1 sampleInterface.pieces = true ∧
      sampleInterface.extended (NameScope.ofStream s) 1 = [['A']] ∧
      (Declaration.read? s (NameScope.ofStream s) 1).map TypeSymbol.interfaces = some [['B']] := by
  have hcomputed : (TokenStream.ofSource
      "<?php\ninterface K extends A implements B \x7b\x7d".toList).map
      (fun s => decide (s.holds 1 sampleInterface.pieces = true ∧
        sampleInterface.extended (NameScope.ofStream s) 1 = [['A']] ∧
        (Declaration.read? s (NameScope.ofStream s) 1).map TypeSymbol.interfaces = some [['B']])) =
      .ok true := by
    decide +kernel
  obtain ⟨s, hs, hall⟩ := TokenStream.exists_of_map_ofSource hcomputed
  exact ⟨s, hs, of_decide_eq_true hall⟩

end Samples

end PhpLint.Grammar

import PhpLint.Proofs.Grammar.Reading
import PhpLint.Proofs.Grammar.UseStatement
import PhpLint.Proofs.Lexing.Construct
import PhpLint.Proofs.Symbols.Unfolding
import PhpLint.Proofs.Symbols.Written
import PhpLint.Symbol.NameScope

/-!
# Import statements are read exactly

A step of the cursor reads one name with its alias and stops in front of the sign behind it
(`step_clause`); from there a comma leads to the next name (`cursorAfter?_comma`) and the end of a group
or of the statement to none, so the whole list is read (`fromCursor_clauses`), in a group with the
group's name in front of each (`ofUse_eq`).

A statement that stands in the body of no type and behind no parenthesis therefore gives the scope of
its file the imports that are written in it, in order, and no others (`readsImports_of_ofSource`).
-/

namespace PhpLint

namespace TokenStream

/-- The signs of a stream are written as they are. -/
def HasSigns (s : TokenStream) : Prop :=
  ∀ i k d, s.isAt i k = true → Scan.sign? k = some d → s.content i = [d]

/-- In the stream of a source every sign has its one spelling. -/
theorem hasSigns_of_ofSource {source : Text} {s : TokenStream} (h : ofSource source = .ok s) :
    s.HasSigns := by
  intro i k d hi hk
  obtain ⟨ls, hlaid, hoccurs⟩ := exists_occurs h
  obtain ⟨t, ht, rfl⟩ := exists_of_isAt hi
  rw [content_of_token? ht]
  exact (hoccurs i _ (hlaid.lexeme_eq ht)).sign hk

end TokenStream

namespace Grammar

open TokenStream (holds_cons_iff holds_append_iff)

variable {s : TokenStream} {i useIndex : Nat} {group : Text} {gap after : Gap} {p sep : Piece}
  {rest : List Piece} {c : ImportClause}

/-! ## The name of a group -/

/-- A name that waits for its next word stops at the brace of a group. -/
theorem nameFrom_opener (hsigns : s.HasSigns) {name : Text} (hat : s.isAt i (.opens .curly) = true)
    (n : Nat) : s.nameFrom name n i = (name, i) := by
  cases n with
  | zero => rfl
  | succ n =>
    obtain ⟨t, ht, hkind⟩ := TokenStream.exists_of_isAt hat
    have htext : t.content = ['\x7b'] := by
      have hbrace := hsigns i _ '\x7b' hat rfl
      rwa [TokenStream.content_of_token? ht] at hbrace
    have hnone : namePart? name t = none := by
      have hbrace : isSegmentChar '\x7b' = false := by decide +kernel
      rw [namePart?, hkind, htext]
      simp [hbrace]
    rw [TokenStream.nameFrom, ht, Option.bind_some, hnone]

/-- Without the separator behind it the name of a group is as it is written. -/
theorem Name.trimEndOf_text (q : Name) :
    Text.trimEndOf (· == '\\') (q.text ++ ['\\']) = q.text := by
  rw [Text.trimEndOf_append_of_all (by simp)]
  rcases List.eq_nil_or_concat' q.text with hnil | ⟨front, c, hname⟩
  · exact absurd hnil q.text_ne_nil
  · have hlast := q.getLast?_text_ne
    rw [hname, List.getLast?_concat] at hlast
    have hc : c ≠ '\\' := by
      rintro rfl
      exact hlast rfl
    rw [hname]
    exact Text.trimEndOf_append_cons (p := (· == '\\')) (beq_eq_false_iff_ne.2 hc) front []

/-- The name of a group is read with the separator behind it. -/
theorem readName?_group (hsigns : s.HasSigns) {q : Name}
    (h : s.holds i (q.pieces ++ { kind := .backslash } :: { kind := .opens .curly } :: rest) = true)
    (hi : i ≤ s.size) :
    s.readName? i = some (q.text ++ ['\\'], i + q.pieces.length + 1) := by
  rw [List.append_cons] at h
  obtain ⟨hname, hopener⟩ := holds_append_iff.1 h
  generalize hps : q.pieces ++ [({ kind := .backslash } : Piece)] = ps at hname hopener
  have hparts : ∀ p ∈ ps, IsPart p := by
    intro p hp
    rw [← hps] at hp
    rcases List.mem_append.1 hp with hp | hp
    · exact q.isPart_of_mem_pieces hp
    · exact .inl (List.mem_singleton.1 hp)
  have htext : ps.flatMap part = q.text ++ ['\\'] := by
    rw [← hps, List.flatMap_append, ← q.text_eq]
    rfl
  have hlength : ps.length = q.pieces.length + 1 := by rw [← hps, List.length_append]; rfl
  obtain ⟨n, hn⟩ : ∃ n, s.size - i = n + ps.length :=
    ⟨s.size - i - ps.length, by have := TokenStream.le_size_of_holds hname hi; omega⟩
  rw [TokenStream.readName?, hn, nameFrom_pieces hname hparts,
    nameFrom_opener hsigns (holds_cons_iff.1 hopener).1, List.nil_append, htext, hlength]
  exact if_neg (by simp)

/-- **The first step** of a group goes into its braces. -/
theorem step_group (hsigns : s.HasSigns) {g : GroupFrame}
    (h : s.holds i (g.front ++ p :: rest) = true) (hp : p.kind.isSignificant = true)
    (hi : i ≤ s.size) :
    Import.step s useIndex ⟨i, group⟩ = (none, some ⟨i + g.front.length, g.name.text⟩) := by
  have hlength : i + g.front.length =
      i + g.name.pieces.length + 1 + 1 + g.inside.pieces.length := by
    rw [GroupFrame.front, List.length_append, List.length_cons, List.length_cons]
    omega
  rw [GroupFrame.front, List.append_assoc, List.cons_append, List.cons_append] at h
  obtain ⟨-, -, hbrace⟩ := holds_cons_iff.1 (holds_append_iff.1 h).2
  obtain ⟨hopener, -, hinside⟩ := holds_cons_iff.1 hbrace
  have hnext : s.nextSignificant (i + g.name.pieces.length + 1) =
      some (i + g.name.pieces.length + 1 + 1 + g.inside.pieces.length) := findNext_gap hinside hp
  rw [Import.step, readName?_group hsigns h hi]
  dsimp only
  rw [if_pos hopener, hnext, g.name.trimEndOf_text, hlength]
  rfl

/-! ## One name with its alias -/

/-- What may stand behind a name and its alias: a sign that is code, no part of a name and not the start
of a group. -/
def separates (k : Kind) : Bool :=
  k.isSignificant && !k.isNamePart && k != .opens .curly && (Scan.sign? k).isSome

/-- A sign ends a name when it is code, no part of a name and opens no group. -/
theorem separates_iff {k : Kind} :
    separates k = true ↔ k.isSignificant = true ∧ k.isNamePart = false ∧ k ≠ .opens .curly ∧
      ∃ d, Scan.sign? k = some d := by
  rw [separates, Bool.and_eq_true, Bool.and_eq_true, Bool.and_eq_true, bne_iff_ne, Bool.not_eq_true',
    Option.isSome_iff_exists, and_assoc, and_assoc]

/-- A sign is no word. -/
theorem sameLetters_sign (hsigns : s.HasSigns) {k : Kind} (hat : s.isAt i k = true)
    (hk : separates k = true) : Text.sameLetters (s.content i) "as".toList = false := by
  obtain ⟨-, -, -, d, hd⟩ := separates_iff.1 hk
  rw [hsigns i k d hat hd]
  simp [Text.sameLetters, Text.foldCase]

/-- Behind a name nothing goes it on or opens a group. -/
theorem not_has_behind_name {f : Kind → Bool}
    (h : s.holds i (ImportClause.aliasPieces c.alias? ++ (gap.pieces ++ sep :: rest)) = true)
    (htrivia : ∀ k, k.isTrivia = true → f k = false) (hsep : f sep.kind = false) :
    s.has i f = false := by
  cases halias : c.alias? with
  | none =>
    rw [halias] at h
    exact not_has_of_gap h htrivia fun _ => hsep
  | some a =>
    rw [halias, ImportClause.aliasPieces, Alias.pieces, List.append_assoc] at h
    refine not_has_of_gap h htrivia fun hempty => ?_
    have hseparated := a.separated
    rw [hempty] at hseparated
    cases hseparated

/-- In front of a sign there is no alias. -/
theorem aliasIndex?_sign (hsigns : s.HasSigns)
    (h : s.holds i (gap.pieces ++ sep :: rest) = true) (hsep : separates sep.kind = true) :
    Import.aliasIndex? s i = none := by
  have hat := (holds_cons_iff.1 (holds_append_iff.1 h).2).1
  rw [Import.aliasIndex?, findNext_gap h (separates_iff.1 hsep).1, Option.bind_eq_bind,
    Option.bind_some, sameLetters_sign hsigns hat hsep]
  rfl

/-- A written alias is found behind its word. -/
theorem aliasIndex?_alias {a : Alias} (h : s.holds i (a.pieces ++ rest) = true) :
    Import.aliasIndex? s i = some (i + a.before.pieces.length + 1 + a.after.pieces.length) ∧
      s.content (i + a.before.pieces.length + 1 + a.after.pieces.length) = a.name.text := by
  rw [Alias.pieces, List.append_assoc, List.cons_append, List.append_assoc,
    List.singleton_append] at h
  obtain ⟨-, hkeyword, hbehind⟩ := holds_cons_iff.1 (holds_append_iff.1 h).2
  obtain ⟨-, hname, -⟩ := holds_cons_iff.1 (holds_append_iff.1 hbehind).2
  have hnext : s.nextSignificant (i + a.before.pieces.length) =
      some (i + a.before.pieces.length + 1 + a.after.pieces.length) := findNext_gap hbehind rfl
  refine ⟨?_, hname a.name.text rfl⟩
  rw [Import.aliasIndex?, findNext_gap h rfl, Option.bind_eq_bind, Option.bind_some,
    hkeyword a.keyword rfl, a.spelled, if_pos rfl, hnext]

/-- An alias has as many pieces as its gaps, its word and its name. -/
theorem Alias.length_pieces (a : Alias) :
    a.pieces.length = a.before.pieces.length + (1 + a.after.pieces.length + 1) := by
  rw [pieces, List.length_append, List.length_cons, List.length_append, List.length_singleton]
  omega

/-- The alias of a name is the one that is written behind it. -/
theorem aliasFrom_pieces (hsigns : s.HasSigns) {target : Text}
    (h : s.holds i (ImportClause.aliasPieces c.alias? ++ (gap.pieces ++ sep :: rest)) = true)
    (hsep : separates sep.kind = true) (htarget : EndsIn target c.name.last) :
    Import.aliasFrom s target i =
      (c.shortName, i + (ImportClause.aliasPieces c.alias?).length) := by
  rw [Import.aliasFrom_eq, ImportClause.shortName]
  cases halias : c.alias? with
  | none =>
    rw [halias] at h
    rw [aliasIndex?_sign hsigns h hsep]
    exact congrArg (Prod.mk · i) (lastSegment_of_endsIn htarget)
  | some a =>
    rw [halias] at h
    obtain ⟨hindex, hname⟩ := aliasIndex?_alias h
    rw [hindex, ImportClause.aliasPieces, a.length_pieces]
    dsimp only
    rw [hname]
    refine congrArg (Prod.mk a.name.text) ?_
    omega

/-- What a name imports, in a group or outside of one. -/
def importOf (useIndex : Nat) (group : Text) (c : ImportClause) : Import :=
  ⟨useIndex, c.shortName, Import.targetOf group c.name.text⟩

/-- A target ends in the last word of the name, with the name of a group in front or without. -/
theorem endsIn_targetOf (group : Text) (q : Name) : EndsIn (Import.targetOf group q.text) q.last := by
  have htext : EndsIn q.text q.last := by
    rw [q.text_eq_append]
    cases q.absolute with
    | true => exact q.endsIn_bare.append []
    | false => exact q.endsIn_bare
  rw [Import.targetOf]
  split
  · rw [q.stripLeading_text]
    exact q.endsIn_bare
  · exact htext.append group

/-- **One step** of a statement reads one name with its alias. -/
theorem step_clause (hsigns : s.HasSigns)
    (h : s.holds i (c.pieces ++ (gap.pieces ++ sep :: rest)) = true) (hi : i ≤ s.size)
    (hsep : separates sep.kind = true) :
    Import.step s useIndex ⟨i, group⟩ =
      (some (importOf useIndex group c), Import.cursorAfter? s group (i + c.pieces.length)) := by
  obtain ⟨-, hpart, hbrace, -⟩ := separates_iff.1 hsep
  rw [ImportClause.pieces, List.append_assoc] at h
  obtain ⟨hname, hbehind⟩ := holds_append_iff.1 h
  have hread := readName?_name hname hi
    (not_has_behind_name hbehind (fun _ hk => Kind.not_isNamePart_of_isTrivia hk) hpart)
  have hopener : ¬s.isAt (i + c.name.pieces.length) (.opens .curly) = true := by
    intro hat
    have hnot := not_has_behind_name (f := (· == .opens .curly)) hbehind
      (fun k hk => Kind.beq_eq_false_of hk rfl) (beq_eq_false_iff_ne.2 hbrace)
    rw [TokenStream.has_of_isAt hat] at hnot
    cases hnot
  have halias := aliasFrom_pieces hsigns hbehind hsep (endsIn_targetOf group c.name)
  rw [Import.step, hread]
  dsimp only
  rw [if_neg hopener, halias, ImportClause.pieces, List.length_append, Nat.add_assoc]
  rfl

/-! ## From one name to the next -/

theorem not_isAt_of_ne {k k' : Kind} (h : s.isAt i k = true) (hk : k ≠ k') :
    ¬s.isAt i k' = true :=
  fun h' => hk (TokenStream.eq_of_isAt h h')

/-- A comma leads to what stands behind it. -/
theorem cursorAfter?_comma
    (h : s.holds i (gap.pieces ++ { kind := .comma } :: (after.pieces ++ p :: rest)) = true)
    (hp : p.kind.isSignificant = true) :
    Import.cursorAfter? s group i =
      some ⟨i + gap.pieces.length + 1 + after.pieces.length, group⟩ := by
  obtain ⟨hcomma, -, hbehind⟩ := holds_cons_iff.1 (holds_append_iff.1 h).2
  have hnext : s.nextSignificant (i + gap.pieces.length) =
      some (i + gap.pieces.length + 1 + after.pieces.length) := findNext_gap hbehind hp
  rw [Import.cursorAfter?, findNext_gap h rfl, Option.bind_eq_bind, Option.bind_some, if_pos hcomma,
    hnext]
  rfl

/-- A semicolon ends the statement. -/
theorem cursorAfter?_semicolon (h : s.holds i (gap.pieces ++ { kind := .semicolon } :: rest) = true) :
    Import.cursorAfter? s group i = none := by
  have hat := (holds_cons_iff.1 (holds_append_iff.1 h).2).1
  rw [Import.cursorAfter?, findNext_gap h rfl, Option.bind_eq_bind, Option.bind_some,
    if_neg (not_isAt_of_ne hat (by decide)), if_neg (not_isAt_of_ne hat (by decide))]

/-- So does a brace with a semicolon behind it. -/
theorem cursorAfter?_closer
    (h : s.holds i (gap.pieces ++ { kind := .closes .curly } ::
      (after.pieces ++ { kind := .semicolon } :: rest)) = true) :
    Import.cursorAfter? s group i = none := by
  obtain ⟨hcloser, -, hbehind⟩ := holds_cons_iff.1 (holds_append_iff.1 h).2
  have hsemicolon := (holds_cons_iff.1 (holds_append_iff.1 hbehind).2).1
  have hnext : s.nextSignificant (i + gap.pieces.length) =
      some (i + gap.pieces.length + 1 + after.pieces.length) := findNext_gap hbehind rfl
  rw [Import.cursorAfter?, findNext_gap h rfl, Option.bind_eq_bind, Option.bind_some,
    if_neg (not_isAt_of_ne hcloser (by decide)), if_pos hcloser, hnext, Option.bind_some,
    if_neg (not_isAt_of_ne hsemicolon (by decide))]

/-- At the brace that closes a group nothing is imported. -/
theorem fromCursor_closer (h : s.holds i ({ kind := .closes .curly } :: rest) = true) :
    Import.fromCursor s useIndex ⟨i, group⟩ = [] := by
  have hpart : s.has i Kind.isNamePart = false := by
    rw [TokenStream.has_of_isAt (holds_cons_iff.1 h).1]
    rfl
  have hread : s.readName? i = none := by
    rw [TokenStream.readName?, nameFrom_stop (by simp) hpart]
    rfl
  have hstep : Import.step s useIndex ⟨i, group⟩ = (none, none) := by rw [Import.step, hread]
  rw [Import.fromCursor_eq, hstep]
  rfl

/-- **A list of names is read** from its first name to what ends it. -/
theorem fromCursor_clauses (hsigns : s.HasSigns) (useIndex : Nat) (group : Text) {cs : ImportClauses}
    (h : s.holds i (cs.pieces ++ (gap.pieces ++ sep :: rest)) = true) (hi : i ≤ s.size)
    (hsep : separates sep.kind = true)
    (hend : ∀ j, s.holds j (gap.pieces ++ sep :: rest) = true →
      ((Import.cursorAfter? s group j).map (Import.fromCursor s useIndex)).getD [] = []) :
    Import.fromCursor s useIndex ⟨i, group⟩ = cs.all.map (importOf useIndex group) := by
  obtain ⟨first, more⟩ := cs
  -- On the names behind the first one, each of which is the first of the names that are left.
  induction more generalizing i first with
  | nil =>
    have hfirst : s.holds i (first.pieces ++ (gap.pieces ++ sep :: rest)) = true := by
      simpa [ImportClauses.pieces] using h
    rw [Import.fromCursor_eq, step_clause hsigns hfirst hi hsep]
    dsimp only
    rw [hend _ (holds_append_iff.1 hfirst).2]
    rfl
  | cons m more ih =>
    obtain ⟨before, after, c⟩ := m
    have hfirst : s.holds i (first.pieces ++ (before.pieces ++ { kind := .comma } ::
        (after.pieces ++ (ImportClauses.pieces ⟨c, more⟩ ++ (gap.pieces ++ sep :: rest))))) = true := by
      simpa [ImportClauses.pieces, ImportClauses.morePieces] using h
    have hbehind := (holds_append_iff.1 hfirst).2
    obtain ⟨p, ps, hpieces, hcode⟩ := ImportClauses.exists_cons ⟨c, more⟩
    have hnext : Import.cursorAfter? s group (i + first.pieces.length) =
        some ⟨i + first.pieces.length + before.pieces.length + 1 + after.pieces.length, group⟩ := by
      rw [hpieces] at hbehind
      exact cursorAfter?_comma hbehind hcode
    obtain ⟨-, hclauses⟩ := holds_append_iff.1 (holds_cons_iff.1 (holds_append_iff.1 hbehind).2).2.2
    have hlt := (Import.lt_of_cursorAfter? hnext).2
    rw [Import.fromCursor_eq, step_clause hsigns hfirst hi rfl, hnext]
    dsimp only
    rw [Option.map_some, Option.getD_some, ih (Nat.le_of_lt hlt) c hclauses]
    rfl

/-! ## Statements -/

/-- The word behind the keyword is that of an import of types. -/
theorem not_isForeign (hsigns : s.HasSigns) {q : Name} (h : s.holds i (q.pieces ++ rest) = true)
    (hq : q.absolute = true ∨ Import.isForeign q.first.text = false) :
    Import.isForeign (s.content i) = false := by
  obtain ⟨absolute, first, more⟩ := q
  cases absolute with
  | true =>
    have hat : s.isAt i .backslash = true := (holds_cons_iff.1 h).1
    rw [hsigns i _ '\\' hat rfl]
    rfl
  | false =>
    have hcontent : s.content i = first.text := (holds_cons_iff.1 h).2.1 first.text rfl
    rw [hcontent]
    exact hq.resolve_left Bool.false_ne_true

/-- The reading of a statement starts at the name behind the keyword. -/
theorem ofUse_name (hsigns : s.HasSigns) {q : Name}
    (h : s.holds (i + 1) (gap.pieces ++ (q.pieces ++ rest)) = true)
    (hq : q.absolute = true ∨ Import.isForeign q.first.text = false) :
    i + 1 + gap.pieces.length < s.size ∧
      Import.ofUse s i = Import.fromCursor s i ⟨i + 1 + gap.pieces.length, []⟩ := by
  obtain ⟨p, ps, hpieces, hcode⟩ := q.exists_cons
  have hfirst : s.nextSignificant i = some (i + 1 + gap.pieces.length) := by
    have hname := h
    rw [hpieces] at hname
    exact findNext_gap hname hcode
  have hforeign := not_isForeign hsigns (holds_append_iff.1 h).2 hq
  refine ⟨(TokenStream.lt_of_nextSignificant hfirst).2, ?_⟩
  rw [Import.ofUse, hfirst]
  dsimp only
  rw [hforeign, if_neg Bool.false_ne_true]

namespace UseStatement

variable (u : UseStatement)

/-- The names of a list import what the statement says. -/
theorem map_importOf_list (hgroup : u.group? = none) (i : Nat) :
    u.clauses.all.map (importOf i []) = u.imports i := by
  refine List.map_congr_left fun c _ => ?_
  have htarget : Import.targetOf [] c.name.text = u.target c := by
    rw [target, hgroup]
    exact c.name.stripLeading_text
  rw [importOf, htarget]

/-- The names of a group import what the statement says, with the group's name in front. -/
theorem map_importOf_group {g : GroupFrame} (hgroup : u.group? = some g)
    (hrelative : ∀ c ∈ u.clauses.all, c.name.absolute = false) (i : Nat) :
    u.clauses.all.map (importOf i g.name.text) = u.imports i := by
  refine List.map_congr_left fun c hc => ?_
  have htarget : Import.targetOf g.name.text c.name.text = u.target c := by
    rw [target, hgroup, Import.targetOf, if_neg (by simpa using g.name.text_ne_nil),
      c.name.text_eq_append, hrelative c hc]
    rfl
  rw [importOf, htarget]

/-- A list of names between the keyword and the semicolon. -/
theorem ofUse_list (hsigns : s.HasSigns) (h : s.holds i u.pieces = true) (hgroup : u.group? = none)
    (hleading : u.leading.absolute = true ∨ Import.isForeign u.leading.first.text = false) :
    Import.ofUse s i = u.imports i := by
  rw [leading, hgroup] at hleading
  rw [pieces, inner, hgroup] at h
  have hbehind := (holds_cons_iff.1 h).2.2
  have hclauses := (holds_append_iff.1 hbehind).2
  rw [ImportClauses.pieces, ImportClause.pieces, List.append_assoc, List.append_assoc] at hbehind
  obtain ⟨hlt, hread⟩ := ofUse_name hsigns hbehind hleading
  rw [hread, ← u.map_importOf_list hgroup]
  refine fromCursor_clauses hsigns i [] hclauses (Nat.le_of_lt hlt) rfl fun j hj => ?_
  rw [cursorAfter?_semicolon hj]
  rfl

/-- The names of a group are read up to its brace, with a comma behind the last one or without. -/
theorem fromCursor_group (hsigns : s.HasSigns) (useIndex : Nat) (group : Text) {g : GroupFrame}
    {cs : ImportClauses} {before : Gap}
    (h : s.holds i (cs.pieces ++ (g.back ++ (before.pieces ++ [{ kind := .semicolon }]))) = true)
    (hi : i ≤ s.size) :
    Import.fromCursor s useIndex ⟨i, group⟩ = cs.all.map (importOf useIndex group) := by
  rw [GroupFrame.back] at h
  cases htrailing : g.trailing? with
  | none =>
    rw [htrailing, GroupFrame.trailingPieces, List.nil_append, List.append_assoc] at h
    refine fromCursor_clauses hsigns useIndex group h hi rfl fun j hj => ?_
    rw [cursorAfter?_closer hj]
    rfl
  | some gap =>
    have hclauses : s.holds i (cs.pieces ++ (gap.pieces ++ { kind := .comma } ::
        (g.before.pieces ++ { kind := .closes .curly } ::
          (before.pieces ++ [{ kind := .semicolon }])))) = true := by
      simpa [htrailing, GroupFrame.trailingPieces] using h
    refine fromCursor_clauses hsigns useIndex group hclauses hi rfl fun j hj => ?_
    have hcloser := (holds_append_iff.1 (holds_cons_iff.1 (holds_append_iff.1 hj).2).2.2).2
    have hnext : Import.cursorAfter? s group j =
        some ⟨j + gap.pieces.length + 1 + g.before.pieces.length, group⟩ := cursorAfter?_comma hj rfl
    rw [hnext, Option.map_some, fromCursor_closer hcloser]
    rfl

/-- Names in braces behind the name of their namespace. -/
theorem ofUse_group (hsigns : s.HasSigns) (h : s.holds i u.pieces = true) {g : GroupFrame}
    (hgroup : u.group? = some g) (hu : u.ImportsTypes) : Import.ofUse s i = u.imports i := by
  have hleading := hu.leading
  rw [leading, hgroup] at hleading
  rw [pieces, inner, hgroup, List.append_assoc, List.append_assoc] at h
  have hbehind := (holds_cons_iff.1 h).2.2
  have hfront := (holds_append_iff.1 hbehind).2
  have hclauses := (holds_append_iff.1 hfront).2
  rw [GroupFrame.front, List.append_assoc] at hbehind
  obtain ⟨hlt, hread⟩ := ofUse_name hsigns hbehind hleading
  generalize i + 1 + u.after.pieces.length = first at hfront hclauses hlt hread
  have hstep : Import.step s i ⟨first, []⟩ = (none, some ⟨first + g.front.length, g.name.text⟩) := by
    obtain ⟨p, ps, hpieces, hcode⟩ := u.clauses.exists_cons
    rw [hpieces] at hfront
    exact step_group hsigns hfront hcode (Nat.le_of_lt hlt)
  have hnext := Import.lt_of_step (congrArg Prod.snd hstep)
  rw [hread, Import.fromCursor_eq, hstep]
  dsimp only
  rw [Option.map_some, Option.getD_some, Option.toList_none, List.nil_append,
    fromCursor_group hsigns i g.name.text hclauses (Nat.le_of_lt hnext.2)]
  exact u.map_importOf_group hgroup (hu.group (by rw [hgroup]; rfl)) i

/-- **A statement is read exactly**: clause by clause, each with its alias and its full name. -/
theorem ofUse_eq (hsigns : s.HasSigns) (h : s.holds i u.pieces = true) (hu : u.ImportsTypes) :
    Import.ofUse s i = u.imports i := by
  cases hgroup : u.group? with
  | none => exact u.ofUse_list hsigns h hgroup hu.leading
  | some g => exact u.ofUse_group hsigns h hgroup hu

end UseStatement

end Grammar

/-! ## The scope of a file -/

namespace NameScope

variable {s : TokenStream} {i : Nat}

/-- The imports that a scope has from the statement at an index. -/
def importsAt (scope : NameScope) (i : Nat) : List Import := scope.imports.filter (·.index == i)

/-- In a list without repetitions an index is met once, or never. -/
theorem flatMap_ite_of_nodup {α : Type} {indices : List Nat} (h : indices.Nodup) (i : Nat)
    (f : Nat → List α) :
    (indices.flatMap fun j => if j = i then f j else []) = if i ∈ indices then f i else [] := by
  induction indices with
  | nil => rfl
  | cons j indices ih =>
    obtain ⟨hj, hindices⟩ := List.nodup_cons.1 h
    rw [List.flatMap_cons, ih hindices]
    by_cases hij : j = i
    · subst hij
      rw [if_pos rfl, if_neg hj, if_pos List.mem_cons_self, List.append_nil]
    · simp [hij, Ne.symm hij]

/-- The imports of a statement carry its index. -/
theorem index_of_mem_ofUse {im : Import} (h : im ∈ Import.ofUse s i) : im.index = i := by
  obtain ⟨c, -, hstep⟩ := Import.exists_cursor_of_mem h
  unfold Import.step at hstep
  split at hstep
  · cases hstep
  · dsimp only at hstep
    split at hstep
    · cases hstep
    · cases hstep
      rfl

/-- Among the imports of one statement, those of an index are all of them or none. -/
theorem filter_ofUse (s : TokenStream) (i j : Nat) :
    (Import.ofUse s j).filter (·.index == i) = if j = i then Import.ofUse s j else [] := by
  split
  · next hji =>
    exact List.filter_eq_self.2 fun im him => beq_iff_eq.2 ((index_of_mem_ofUse him).trans hji)
  · next hji =>
    refine List.filter_eq_nil_iff.2 fun im him hindex => hji ?_
    exact (index_of_mem_ofUse him).symm.trans (beq_iff_eq.1 hindex)

/-- A keyword that starts an import is a token of the stream. -/
theorem lt_size_of_startsImport {bodies : List (Nat × Nat)} (h : startsImport s bodies i = true) :
    i < s.size := by
  rw [startsImport, Bool.and_eq_true, Bool.and_eq_true] at h
  exact TokenStream.lt_size_of_has (TokenStream.has_of_isAt h.1.1 fun _ => true)

/-- A scope has the imports of a statement, and nothing from a `use` that starts none. -/
theorem importsAt_ofStream (s : TokenStream) (i : Nat) :
    (ofStream s).importsAt i =
      if startsImport s (typeBodies s) i = true then Import.ofUse s i else [] := by
  have hnodup := (List.nodup_range (n := s.size)).filter (startsImport s (typeBodies s))
  have hmem : i ∈ (List.range s.size).filter (startsImport s (typeBodies s)) ↔
      startsImport s (typeBodies s) i = true := by
    rw [List.mem_filter, List.mem_range]
    exact and_iff_right_of_imp lt_size_of_startsImport
  rw [importsAt, ofStream]
  dsimp only
  rw [List.filter_flatMap, List.flatMap_congr fun j _ => filter_ofUse s i j,
    flatMap_ite_of_nodup hnodup, if_congr hmem rfl rfl]

/-- What a scope takes from the `use` keywords of a file. -/
structure ReadsImports (s : TokenStream) : Prop where
  /-- A written statement in no body of a type and behind no parenthesis gives what is written in it. -/
  statement : ∀ (u : Grammar.UseStatement) i, s.holds i u.pieces = true → u.ImportsTypes →
    (∀ body ∈ typeBodies s, TokenStream.inside i body = false) →
    (∀ p, s.previousSignificant i = some p → s.isAt p (.closes .round) = false) →
    (ofStream s).importsAt i = u.imports i
  /-- The variables of a closure are no imports. -/
  closure : ∀ i p, s.previousSignificant i = some p → s.isAt p (.closes .round) = true →
    (ofStream s).importsAt i = []
  /-- Neither are the traits of a type. -/
  traitUse : ∀ i k o c, s.NamedBody k o c → o < i → i < c → (ofStream s).importsAt i = []
  /-- The scope has nothing else. -/
  whole : (ofStream s).imports = (List.range s.size).flatMap (ofStream s).importsAt

/-- A statement outside of the bodies of types and behind no parenthesis is read as it is written. -/
theorem importsAt_of_statement (hsigns : s.HasSigns) {u : Grammar.UseStatement}
    (h : s.holds i u.pieces = true) (hu : u.ImportsTypes)
    (houtside : ∀ body ∈ typeBodies s, TokenStream.inside i body = false)
    (hbefore : ∀ p, s.previousSignificant i = some p → s.isAt p (.closes .round) = false) :
    (ofStream s).importsAt i = u.imports i := by
  have hkeyword : s.isAt i (.keyword .kwUse) = true := (TokenStream.holds_cons_iff.1 h).1
  have hbodies : (typeBodies s).any (TokenStream.inside i) = false :=
    List.any_eq_false.2 fun body hbody => by rw [houtside body hbody]; exact Bool.false_ne_true
  have hparenthesis : (s.previousSignificant i).any (s.isAt · (.closes .round)) = false := by
    cases hp : s.previousSignificant i with
    | none => rfl
    | some p => exact hbefore p hp
  have hstarts : startsImport s (typeBodies s) i = true := by
    rw [startsImport, hkeyword, hbodies, hparenthesis]
    rfl
  rw [importsAt_ofStream, if_pos hstarts, u.ofUse_eq hsigns h hu]

/-- Behind a parenthesis no import starts. -/
theorem importsAt_of_parenthesis {p : Nat} (hp : s.previousSignificant i = some p)
    (hat : s.isAt p (.closes .round) = true) : (ofStream s).importsAt i = [] := by
  have hnot : startsImport s (typeBodies s) i = false := by
    rw [startsImport, hp, Option.any_some, hat, Bool.not_true, Bool.and_false]
  rw [importsAt_ofStream, hnot, if_neg Bool.false_ne_true]

/-- Inside of the body of a type no import starts. -/
theorem importsAt_of_namedBody {k o c : Nat} (hbody : s.NamedBody k o c) (ho : o < i) (hc : i < c) :
    (ofStream s).importsAt i = [] := by
  obtain ⟨hdeclares, hopens⟩ := TokenStream.namedBody_iff.1 hbody
  have hmem : (o, c) ∈ typeBodies s := by
    refine List.mem_filterMap.2 ⟨k, List.mem_filter.2 ⟨?_, ?_⟩, hopens⟩
    · exact List.mem_range.2 (TokenStream.lt_size_of_isTypeDeclaration hdeclares)
    · rw [hdeclares, Bool.true_or]
  have hbodies : (typeBodies s).any (TokenStream.inside i) = true :=
    List.any_eq_true.2 ⟨(o, c), hmem, TokenStream.inside_iff.2 ⟨ho, hc⟩⟩
  have hnot : startsImport s (typeBodies s) i = false := by
    rw [startsImport, hbodies, Bool.not_true, Bool.and_false, Bool.false_and]
  rw [importsAt_ofStream, hnot, if_neg Bool.false_ne_true]

/-- The imports of a scope are those of its statements, in order. -/
theorem imports_eq_flatMap (s : TokenStream) :
    (ofStream s).imports = (List.range s.size).flatMap (ofStream s).importsAt := by
  rw [funext (importsAt_ofStream s), ofStream]
  dsimp only
  induction List.range s.size with
  | nil => rfl
  | cons i indices ih =>
    rw [List.flatMap_cons, List.filter_cons, ← ih]
    split <;> rfl

/-- **Import statements are read exactly.** -/
theorem readsImports_of_ofSource {source : Text} {s : TokenStream}
    (h : TokenStream.ofSource source = .ok s) : ReadsImports s where
  statement _ _ hholds hu houtside hbefore :=
    importsAt_of_statement (TokenStream.hasSigns_of_ofSource h) hholds hu houtside hbefore
  closure _ _ hp hat := importsAt_of_parenthesis hp hat
  traitUse _ _ _ _ hbody ho hc := importsAt_of_namedBody hbody ho hc
  whole := imports_eq_flatMap s

section Samples

open Grammar (noGap space)

/-- Two names with comments, the second one under an alias. -/
def sampleList : Grammar.UseStatement where
  after := { kinds := [.whitespace, .comment, .whitespace] }
  group? := none
  clauses := ⟨⟨⟨true, ⟨['L'], by decide⟩, [⟨"Array".toList, by decide⟩]⟩, none⟩,
    [(noGap, space, ⟨⟨false, ⟨['M'], by decide⟩, []⟩,
      some { before := space, keyword := "as".toList,
             after := { kinds := [.whitespace, .comment, .whitespace] },
             name := ⟨['N'], by decide⟩ }⟩)]⟩
  before := noGap

/-- Two names in a group, with a comma behind the second one. -/
def sampleGroup : Grammar.UseStatement where
  after := space
  group? := some
    { name := ⟨false, ⟨['P'], by decide⟩, [⟨['Q'], by decide⟩]⟩
      inside := noGap, trailing? := some noGap, before := noGap }
  clauses := ⟨⟨⟨false, ⟨['D'], by decide⟩, []⟩,
      some { before := space, keyword := "as".toList, after := space, name := ⟨['E'], by decide⟩ }⟩,
    [(noGap, { kinds := [.whitespace, .whitespace] },
      ⟨⟨false, ⟨['F'], by decide⟩, [⟨['G'], by decide⟩]⟩, none⟩)]⟩
  before := noGap

/-- A file with a list and a group of names, a closure and a class. -/
theorem readsImports_of_ofSource_group :
    ∃ s, TokenStream.ofSource ("<?php\nuse /**/ \\L\\Array, M as /**/ N;\n" ++
        "use P\\Q\\\x7bD as E,\n F\\G,\x7d;\n" ++
        "function()use($x)\x7b\x7d;class K\x7buse T;\x7d").toList = .ok s ∧
      (ofStream s).importsAt 1 = [⟨1, "Array".toList, "L\\Array".toList⟩, ⟨1, ['N'], ['M']⟩] ∧
      (ofStream s).importsAt 20 = [⟨20, ['E'], "P\\Q\\D".toList⟩, ⟨20, ['G'], "P\\Q\\F\\G".toList⟩] ∧
      (ofStream s).importsAt 45 = [] ∧ (ofStream s).importsAt 56 = [] := by
  have hcomputed : (TokenStream.ofSource
      ("<?php\nuse /**/ \\L\\Array, M as /**/ N;\n" ++
        "use P\\Q\\\x7bD as E,\n F\\G,\x7d;\n" ++
        "function()use($x)\x7b\x7d;class K\x7buse T;\x7d").toList).map
      (fun s => decide (s.holds 1 sampleList.pieces = true ∧ s.holds 20 sampleGroup.pieces = true ∧
        typeBodies s = [(55, 60)] ∧ s.previousSignificant 1 = some 0 ∧
        s.previousSignificant 20 = some 18 ∧ s.isAt 0 (.closes .round) = false ∧
        s.isAt 18 (.closes .round) = false ∧ s.previousSignificant 45 = some 44 ∧
        s.isAt 44 (.closes .round) = true ∧ s.isTypeDeclaration 52 = true ∧
        s.body? 52 = some (55, 60))) = .ok true := by
    decide +kernel
  obtain ⟨s, hs, hall⟩ := TokenStream.exists_of_map_ofSource hcomputed
  obtain ⟨hlist, hgroup, hbodies, hbefore, hbefore', hat, hat', hclosure, hparenthesis, hdeclares,
    hbody⟩ := of_decide_eq_true hall
  have hreads := readsImports_of_ofSource hs
  have hnamed : s.NamedBody 52 55 60 := TokenStream.namedBody_iff.2 ⟨hdeclares, hbody⟩
  refine ⟨s, hs, ?_, ?_, hreads.closure 45 44 hclosure hparenthesis,
    hreads.traitUse 56 52 55 60 hnamed (by decide) (by decide)⟩
  · refine hreads.statement sampleList 1 hlist ⟨.inl rfl, fun h => nomatch h⟩ ?_ ?_
    · rw [hbodies]
      decide
    · rw [hbefore]
      rintro p ⟨⟩
      exact hat
  · refine hreads.statement sampleGroup 20 hgroup ⟨.inr (by decide), fun _ => by decide⟩ ?_ ?_
    · rw [hbodies]
      decide
    · rw [hbefore']
      rintro p ⟨⟩
      exact hat'

/-- One name in a group, with a separator in front. -/
def sampleAbsolute : Grammar.UseStatement where
  after := space
  group? := some
    { name := ⟨false, ⟨['P'], by decide⟩, []⟩, inside := noGap, trailing? := none, before := noGap }
  clauses := ⟨⟨⟨true, ⟨['R'], by decide⟩, []⟩, none⟩, []⟩
  before := noGap

/-- One name. -/
def sampleName : Grammar.UseStatement where
  after := space
  group? := none
  clauses := ⟨⟨⟨false, ⟨['D'], by decide⟩, []⟩, none⟩, []⟩
  before := noGap

/-- A separator in front of a name in a group is doubled, and behind a method with the name `class` the
next braces are taken for the body of a class, so an import in them is lost. -/
theorem importsAt_unlike_written :
    (∃ s, TokenStream.ofSource "<?php\nuse P\\\x7b\\R\x7d;".toList = .ok s ∧
      s.holds 1 sampleAbsolute.pieces = true ∧
      sampleAbsolute.imports 1 = [⟨1, ['R'], "P\\R".toList⟩] ∧
      (ofStream s).importsAt 1 = [⟨1, ['R'], "P\\\\R".toList⟩]) ∧
    ∃ s, TokenStream.ofSource ("<?php\nnamespace A \x7bclass C \x7buse T \x7bclass as foo ?>" ++
        "<?php \x7d\x7d\x7d\nnamespace B \x7buse D;\x7d").toList = .ok s ∧
      s.holds 33 sampleName.pieces = true ∧ s.isAt 32 (.opens .curly) = true ∧
      (ofStream s).importsAt 33 = [] := by
  have hcomputed : (TokenStream.ofSource "<?php\nuse P\\\x7b\\R\x7d;".toList).map
      (fun s => decide (s.holds 1 sampleAbsolute.pieces = true ∧
        sampleAbsolute.imports 1 = [⟨1, ['R'], "P\\R".toList⟩] ∧
        (ofStream s).importsAt 1 = [⟨1, ['R'], "P\\\\R".toList⟩])) = .ok true := by
    decide +kernel
  have hcomputed' : (TokenStream.ofSource
      ("<?php\nnamespace A \x7bclass C \x7buse T \x7bclass as foo ?>" ++
        "<?php \x7d\x7d\x7d\nnamespace B \x7buse D;\x7d").toList).map
      (fun s => decide (s.holds 33 sampleName.pieces = true ∧ s.isAt 32 (.opens .curly) = true ∧
        (ofStream s).importsAt 33 = [])) = .ok true := by
    decide +kernel
  obtain ⟨s, hs, hall⟩ := TokenStream.exists_of_map_ofSource hcomputed
  obtain ⟨s', hs', hall'⟩ := TokenStream.exists_of_map_ofSource hcomputed'
  exact ⟨⟨s, hs, of_decide_eq_true hall⟩, s', hs', of_decide_eq_true hall'⟩

end Samples

end NameScope

end PhpLint

import PhpLint.Proofs.Grammar.TypeDeclaration
import PhpLint.Proofs.LineEnds.Declaration

/-!
# Written names are read

Reading goes along the pieces of a name and stops behind them, where no word and no separator stands
(`readName?_name`).  A list is read name by name, up to what is no comma behind it (`namesFrom_names`),
and the names of a clause are resolved at its keyword (`namesAfter_names`).
-/

namespace PhpLint

/-- A kind of some class is none that lies outside of it. -/
theorem Kind.beq_eq_false_of {f : Kind → Bool} {k other : Kind} (hk : f k = true)
    (hother : f other = false) : (k == other) = false := by
  refine beq_eq_false_iff_ne.2 ?_
  rintro rfl
  rw [hk] at hother
  cases hother

/-- A word or a separator, which may go on a name. -/
def Kind.isNamePart (k : Kind) : Bool := k == .backslash || k == .identifier

/-- A kind that may end a list of names: code, and neither a comma nor part of a name. -/
def Kind.endsNames (k : Kind) : Bool := k.isSignificant && k != .comma && !k.isNamePart

/-- A kind that may stand in a list of names. -/
def Kind.isInNames (k : Kind) : Bool := k.isTrivia || k == .comma || k.isNamePart

/-- White space and comments are no part of a name. -/
theorem Kind.not_isNamePart_of_isTrivia {k : Kind} (h : k.isTrivia = true) :
    k.isNamePart = false := by
  cases k <;> first | rfl | cases h

theorem Kind.not_isSignificant_of_isTrivia {k : Kind} (h : k.isTrivia = true) :
    k.isSignificant = false := by
  rw [isSignificant, h]
  rfl

namespace Grammar

variable {s : TokenStream} {i n : Nat} {name : Text}

/-! ## The pieces of names -/

/-- A word is not empty. -/
theorem Word.ne_nil (w : Word) : w.text ≠ [] := by
  intro hnil
  have hshaped := w.shaped
  rw [hnil] at hshaped
  cases hshaped

/-- Behind a word a name does not end in a separator. -/
theorem Word.getLast?_ne (w : Word) (front : Text) : (front ++ w.text).getLast? ≠ some '\\' := by
  rw [List.getLast?_append_of_ne_nil _ w.ne_nil]
  intro hlast
  have hshaped := w.shaped
  rw [Bool.and_eq_true, List.all_eq_true] at hshaped
  have hchar := hshaped.2 '\\' (List.mem_of_getLast? hlast)
  revert hchar
  decide

/-- A piece of a name is a separator or a word. -/
def IsPart (p : Piece) : Prop := p = { kind := .backslash } ∨ ∃ w : Word, p = w.piece

/-- What a piece of a name adds to it. -/
def part (p : Piece) : Text := p.text?.getD ['\\']

theorem IsPart.isNamePart {p : Piece} (h : IsPart p) : p.kind.isNamePart = true := by
  rcases h with rfl | ⟨w, rfl⟩ <;> rfl

namespace Name

/-- The pieces of a name are separators and words. -/
theorem isPart_of_mem_pieces (q : Name) {p : Piece} (hp : p ∈ q.pieces) : IsPart p := by
  unfold pieces at hp
  rcases List.mem_append.1 hp with hp | hp
  · obtain ⟨-, hp⟩ := List.mem_ite_nil_right.1 hp
    exact .inl (List.mem_singleton.1 hp)
  · rcases List.mem_cons.1 hp with rfl | hp
    · exact .inr ⟨q.first, rfl⟩
    · obtain ⟨w, -, hp⟩ := List.mem_flatMap.1 hp
      rcases List.mem_cons.1 hp with rfl | hp
      · exact .inl rfl
      · exact .inr ⟨w, List.mem_singleton.1 hp⟩

/-- The text of a name is what its pieces add to it. -/
theorem text_eq (q : Name) : q.text = q.pieces.flatMap part := by
  have hmore : (q.more.flatMap fun w => '\\' :: w.text) =
      q.more.flatMap fun w => [{ kind := .backslash }, w.piece].flatMap part := by
    refine List.flatMap_congr fun w _ => ?_
    simp [part, Word.piece]
  rw [text, pieces, List.flatMap_append, List.flatMap_cons, List.flatMap_assoc, hmore]
  congr 1
  split <;> rfl

/-- A name ends with a word. -/
theorem getLast?_text_ne (q : Name) : q.text.getLast? ≠ some '\\' := by
  unfold text
  rw [← List.append_assoc]
  cases hmore : q.more.reverse with
  | nil =>
    rw [List.reverse_eq_nil_iff.1 hmore, List.flatMap_nil, List.append_nil]
    exact q.first.getLast?_ne _
  | cons w ws =>
    rw [List.reverse_eq_cons_iff.1 hmore, List.flatMap_append, List.flatMap_singleton,
      List.append_cons _ '\\' w.text, ← List.append_assoc]
    exact w.getLast?_ne _

/-- A name is not empty. -/
theorem text_ne_nil (q : Name) : q.text ≠ [] := by
  intro hnil
  have hfirst := q.first.ne_nil
  simp [text, hfirst] at hnil

end Name

/-! ## One name -/

open TokenStream (holds_cons_iff holds_append_iff)

/-- A piece goes on a name. -/
theorem nameFrom_part {p : Piece} (hp : IsPart p) (hat : s.isAt i p.kind = true)
    (hcontent : ∀ t ∈ p.text?, s.content i = t) :
    s.nameFrom name (n + 1) i = s.nameFrom (name ++ part p) n (i + 1) := by
  obtain ⟨t, ht, hkind⟩ := TokenStream.exists_of_isAt hat
  have hpart : namePart? name t = some (part p) := by
    rcases hp with rfl | ⟨w, rfl⟩
    · rw [namePart?, hkind]
      rfl
    · have hcontent := hcontent w.text rfl
      rw [TokenStream.content_of_token? ht] at hcontent
      rw [namePart?, hkind]
      exact congrArg some hcontent
  rw [TokenStream.nameFrom, ht, Option.bind_some, hpart]

/-- Reading goes along the pieces of a name. -/
theorem nameFrom_pieces {ps : List Piece} (h : s.holds i ps = true) (hparts : ∀ p ∈ ps, IsPart p) :
    s.nameFrom name (n + ps.length) i =
      s.nameFrom (name ++ ps.flatMap part) n (i + ps.length) := by
  induction ps generalizing i name with
  | nil =>
    rw [List.flatMap_nil, List.append_nil]
    rfl
  | cons p ps ih =>
    obtain ⟨hat, hcontent, hrest⟩ := holds_cons_iff.1 h
    have hparts' : ∀ q ∈ ps, IsPart q := fun q hq => hparts q (List.mem_cons_of_mem p hq)
    rw [List.length_cons, ← Nat.add_assoc, nameFrom_part (hparts p List.mem_cons_self) hat hcontent,
      ih hrest hparts', List.flatMap_cons, List.append_assoc, Nat.add_assoc i, Nat.add_comm 1]

/-- A name that does not end in a separator stops where no word and no separator stands. -/
theorem nameFrom_stop (hlast : name.getLast? ≠ some '\\')
    (hstop : s.has i Kind.isNamePart = false) : s.nameFrom name n i = (name, i) := by
  cases n with
  | zero => rfl
  | succ n =>
    have hnone : (s.token? i).bind (namePart? name) = none := by
      cases ht : s.token? i with
      | none => rfl
      | some t =>
        have hkind : t.kind.isNamePart = false := by rwa [TokenStream.has_of_token? ht] at hstop
        rw [Option.bind_some, namePart?]
        split
        · next heq =>
          rw [heq] at hkind
          cases hkind
        · next heq =>
          rw [heq] at hkind
          cases hkind
        · rw [if_neg]
          rw [Bool.and_eq_true, decide_eq_true_eq]
          exact fun h => hlast h.1
    rw [TokenStream.nameFrom, hnone]

/-- **A name is read** up to what stands behind it. -/
theorem readName?_name {q : Name} (h : s.holds i q.pieces = true) (hi : i ≤ s.size)
    (hstop : s.has (i + q.pieces.length) Kind.isNamePart = false) :
    s.readName? i = some (q.text, i + q.pieces.length) := by
  obtain ⟨n, hn⟩ : ∃ n, s.size - i = n + q.pieces.length :=
    ⟨s.size - i - q.pieces.length, by have := TokenStream.le_size_of_holds h hi; omega⟩
  have hread : s.nameFrom [] (n + q.pieces.length) i = (q.text, i + q.pieces.length) := by
    rw [nameFrom_pieces h fun p hp => q.isPart_of_mem_pieces hp, List.nil_append, ← q.text_eq,
      nameFrom_stop q.getLast?_text_ne hstop]
  rw [TokenStream.readName?, hn, hread]
  exact if_neg (by simpa using q.text_ne_nil)

/-! ## Lists of names -/

/-- At the start of a gap stands nothing of a kind that is in no gap, unless the gap is empty. -/
theorem not_has_of_gap {f : Kind → Bool} {gap : Gap} {p : Piece} {ps : List Piece}
    (h : s.holds i (gap.pieces ++ p :: ps) = true) (hgap : ∀ k, k.isTrivia = true → f k = false)
    (hp : gap.kinds = [] → f p.kind = false) : s.has i f = false := by
  cases hpieces : gap.pieces with
  | nil =>
    rw [hpieces] at h
    rw [TokenStream.has_of_isAt (holds_cons_iff.1 h).1, hp (List.map_eq_nil_iff.1 hpieces)]
  | cons q qs =>
    rw [hpieces] at h
    rw [TokenStream.has_of_isAt (holds_cons_iff.1 h).1]
    refine hgap q.kind (gap.fits_of_mem_pieces ?_)
    rw [hpieces]
    exact List.mem_cons_self

/-- A gap and what stands behind it do not go on a name. -/
theorem not_isNamePart_of_gap {gap : Gap} {p : Piece} {ps : List Piece}
    (h : s.holds i (gap.pieces ++ p :: ps) = true) (hp : p.kind.isNamePart = false) :
    s.has i Kind.isNamePart = false :=
  not_has_of_gap h (fun _ hk => Kind.not_isNamePart_of_isTrivia hk) fun _ => hp

/-- Behind a gap the search for code finds the first piece that is code. -/
theorem findNext_gap {gap : Gap} {p : Piece} {ps : List Piece}
    (h : s.holds i (gap.pieces ++ p :: ps) = true) (hp : p.kind.isSignificant = true) :
    s.findNext Kind.isSignificant i = some (i + gap.pieces.length) :=
  TokenStream.findNext_piece h
    (fun _ hq => Kind.not_isSignificant_of_isTrivia (gap.fits_of_mem_pieces hq)) hp

/-- A name starts with a piece that is code. -/
theorem Name.exists_cons (q : Name) :
    ∃ p ps, q.pieces = p :: ps ∧ p.kind.isSignificant = true := by
  unfold pieces
  cases q.absolute with
  | true => exact ⟨_, _, rfl, rfl⟩
  | false => exact ⟨_, _, rfl, rfl⟩

/-- A list ends at code that is neither a comma nor part of a name. -/
theorem Kind.endsNames_iff {k : Kind} :
    k.endsNames = true ↔ k.isSignificant = true ∧ k ≠ .comma ∧ k.isNamePart = false := by
  rw [Kind.endsNames, Bool.and_eq_true, Bool.and_eq_true, bne_iff_ne, Bool.not_eq_true', and_assoc]

/-- Behind the last name of a list there is none. -/
theorem nextInList?_end {gap : Gap} {p : Piece} {ps : List Piece}
    (h : s.holds i (gap.pieces ++ p :: ps) = true) (hp : p.kind.endsNames = true) :
    Declaration.nextInList? s i = none := by
  obtain ⟨hcode, hcomma, -⟩ := Kind.endsNames_iff.1 hp
  have hat := (holds_cons_iff.1 (holds_append_iff.1 h).2).1
  have hother : s.isAt (i + gap.pieces.length) .comma = false := by
    rw [TokenStream.isAt, TokenStream.isAt_iff.1 hat]
    simpa using hcomma
  rw [Declaration.nextInList?, findNext_gap h hcode, Option.bind_eq_bind, Option.bind_some, hother]
  rfl

/-- Behind a name the list goes on past a comma and the gaps around it. -/
theorem nextInList?_more {before after : Gap} {q : Name} {ps : List Piece}
    (h : s.holds i (before.pieces ++ { kind := .comma } :: (after.pieces ++ (q.pieces ++ ps))) = true) :
    Declaration.nextInList? s i = some (i + before.pieces.length + 1 + after.pieces.length) := by
  obtain ⟨hat, -, hrest⟩ := holds_cons_iff.1 (holds_append_iff.1 h).2
  obtain ⟨p, qs, hq, hcode⟩ := q.exists_cons
  rw [hq] at hrest
  rw [Declaration.nextInList?, findNext_gap h rfl, Option.bind_eq_bind, Option.bind_some, hat]
  exact findNext_gap hrest hcode

/-- **A list is read** name by name, up to what is no comma behind it. -/
theorem namesFrom_names {ns : Names} {gap : Gap} {p : Piece} {ps : List Piece}
    (h : s.holds i (ns.pieces ++ (gap.pieces ++ p :: ps)) = true) (hi : i ≤ s.size)
    (hp : p.kind.endsNames = true) : Declaration.namesFrom s i = ns.texts := by
  obtain ⟨first, more⟩ := ns
  induction more generalizing i first with
  | nil =>
    have hname : s.holds i (first.pieces ++ (gap.pieces ++ p :: ps)) = true := by
      simpa [Names.pieces] using h
    obtain ⟨hfirst, hend⟩ := holds_append_iff.1 hname
    have hstop := not_isNamePart_of_gap hend (Kind.endsNames_iff.1 hp).2.2
    rw [Declaration.namesFrom_eq, readName?_name hfirst hi hstop]
    dsimp only
    rw [nextInList?_end hend hp]
    rfl
  | cons m more ih =>
    obtain ⟨before, after, q⟩ := m
    have hname : s.holds i (first.pieces ++ (before.pieces ++ { kind := .comma } ::
        (after.pieces ++ (Names.pieces ⟨q, more⟩ ++ (gap.pieces ++ p :: ps))))) = true := by
      simpa [Names.pieces, Names.morePieces] using h
    obtain ⟨hfirst, hmore⟩ := holds_append_iff.1 hname
    have hstop := not_isNamePart_of_gap hmore rfl
    have hnext : Declaration.nextInList? s (i + first.pieces.length) =
        some (i + first.pieces.length + before.pieces.length + 1 + after.pieces.length) := by
      rw [Names.pieces, List.append_assoc] at hmore
      exact nextInList?_more hmore
    obtain ⟨hgap, hrest⟩ := holds_append_iff.1 (holds_cons_iff.1 (holds_append_iff.1 hmore).2).2.2
    have hi' := Declaration.lt_of_nextInList? hnext
    rw [Declaration.namesFrom_eq, readName?_name hfirst hi hstop]
    dsimp only
    rw [hnext, Option.map_some, Option.getD_some, ih (Nat.le_of_lt hi'.2) q hrest]
    rfl

/-- The names behind a keyword, resolved where it stands. -/
theorem namesAfter_names {scope : NameScope} {after gap : Gap} {ns : Names} {p : Piece}
    {ps : List Piece}
    (h : s.holds (i + 1) (after.pieces ++ (ns.pieces ++ (gap.pieces ++ p :: ps))) = true)
    (hp : p.kind.endsNames = true) :
    Declaration.namesAfter s scope i = ns.texts.map (scope.qualify · i) := by
  obtain ⟨q, qs, hq, hcode⟩ := ns.first.exists_cons
  have hstart : s.nextSignificant i = some (i + 1 + after.pieces.length) := by
    have hname := h
    rw [Names.pieces, hq] at hname
    exact findNext_gap hname hcode
  have hi := TokenStream.lt_size_of_has (TokenStream.has_of_findNext hstart)
  rw [Declaration.namesAfter, hstart]
  dsimp only
  rw [namesFrom_names (holds_append_iff.1 h).2 (Nat.le_of_lt hi) hp]

/-! ## What stands in a list -/

theorem Kind.not_isDelimiter_of_isNamePart {k : Kind} (h : k.isNamePart = true) :
    k.isDelimiter = false := by
  cases k <;> first | rfl | cases h

namespace Name

theorem isNamePart_of_mem_pieces (q : Name) {p : Piece} (hp : p ∈ q.pieces) :
    p.kind.isNamePart = true :=
  (q.isPart_of_mem_pieces hp).isNamePart

/-- In a name no bracket stands. -/
theorem isClosed_pieces (q : Name) : IsClosed (q.pieces.map Piece.kind) := by
  refine IsClosed.of_plain fun k hk => ?_
  obtain ⟨p, hp, rfl⟩ := List.mem_map.1 hk
  exact Kind.not_isDelimiter_of_isNamePart (q.isNamePart_of_mem_pieces hp)

end Name

theorem isInNames_of_mem_gap {gap : Gap} {p : Piece} (hp : p ∈ gap.pieces) :
    p.kind.isInNames = true := by
  rw [Kind.isInNames, gap.fits_of_mem_pieces hp, Bool.true_or, Bool.true_or]

namespace Names

/-- A list of names holds names, commas and gaps. -/
theorem isInNames_of_mem_pieces (ns : Names) {p : Piece} (hp : p ∈ ns.pieces) :
    p.kind.isInNames = true := by
  have hname {q : Name} (hp : p ∈ q.pieces) : p.kind.isInNames = true := by
    rw [Kind.isInNames, q.isNamePart_of_mem_pieces hp, Bool.or_true]
  unfold pieces at hp
  rcases List.mem_append.1 hp with hp | hp
  · exact hname hp
  · obtain ⟨⟨before, after, q⟩, -, hp⟩ := List.mem_flatMap.1 hp
    rcases List.mem_append.1 hp with hp | hp
    · exact isInNames_of_mem_gap hp
    · rcases List.mem_cons.1 hp with rfl | hp
      · rfl
      · rcases List.mem_append.1 hp with hp | hp
        · exact isInNames_of_mem_gap hp
        · exact hname hp

/-- In a list of names no bracket stands. -/
theorem isClosed_pieces (ns : Names) : IsClosed (ns.pieces.map Piece.kind) := by
  obtain ⟨first, more⟩ := ns
  rw [pieces, List.map_append]
  refine first.isClosed_pieces.append ?_
  induction more with
  | nil => exact IsClosed.nil
  | cons m more ih =>
    obtain ⟨before, after, q⟩ := m
    have hmore : IsClosed ((morePieces (before, after, q)).map Piece.kind) := by
      rw [morePieces, List.map_append, List.map_cons, List.map_append]
      exact before.isClosed_pieces.append
        (.cons rfl (after.isClosed_pieces.append q.isClosed_pieces))
    rw [List.flatMap_cons, List.map_append]
    exact hmore.append ih

end Names

end Grammar

end PhpLint

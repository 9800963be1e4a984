import PhpLint.Proofs.Grammar.Names

/-!
# Written members are read

The cursor of a body goes over a member from its first index to the one behind it.  On its way it finds
the traits of a trait use, or the one method that stands there, and nothing else (`walks_member`):
over quiet code it goes token by token, and over a method it jumps from the keyword to the end of the
body, whatever is in it, or to the semicolon in its place.
-/

namespace PhpLint.Grammar

open Declaration (membersFrom memberAt memberEnd memberNext startsMethod namesAfter)
open TokenStream (holds_cons_iff holds_append_iff findNext_piece endsHeader isFunctionKeyword)

variable {s : TokenStream} {scope : NameScope} {closer i j k : Nat} {ps : List Piece} {f : Kind → Bool}

/-! ## Kinds of pieces -/

/-- A list of names is quiet. -/
theorem isQuiet_of_isInNames {k : Kind} (h : k.isInNames = true) : isQuiet k = true := by
  cases k
  case keyword w => cases h
  all_goals rfl

/-- White space and comments are quiet. -/
theorem isQuiet_of_isTrivia {k : Kind} (h : k.isTrivia = true) : isQuiet k = true := by
  cases k
  case keyword w => cases h
  all_goals rfl

/-- What stands before the keyword of a method is quiet. -/
theorem isQuiet_of_isBeforeMethod {k : Kind} (h : isBeforeMethod k = true) : isQuiet k = true := by
  cases k
  case keyword w => cases w <;> first | rfl | cases h
  all_goals rfl

/-- A kind that may stand between the keyword of a method and its parameters. -/
def isMethodHead (k : Kind) : Bool := k.isTrivia || k == .operator || k == .identifier

/-- White space and comments may stand between the keyword of a method and its parameters. -/
theorem isMethodHead_of_isTrivia {k : Kind} (h : k.isTrivia = true) : isMethodHead k = true := by
  rw [isMethodHead, h]
  rfl

/-- What stands between the keyword of a method and its parameters ends no header. -/
theorem isHeader_of_isMethodHead {k : Kind} (h : isMethodHead k = true) : isHeader k = true := by
  rw [isHeader, endsHeader, Kind.beq_eq_false_of h rfl, Kind.beq_eq_false_of h rfl]
  rfl

/-- Where some pieces stand, the first of them stands. -/
theorem holds_first {p : Piece} (h : s.holds i (p :: ps) = true) : s.holds i [p] = true := by
  rw [← List.singleton_append] at h
  exact (holds_append_iff.1 h).1

/-! ## Names behind a keyword -/

/-- The name that stands behind a keyword. -/
theorem declaredName?_of_name {w : Word} {n : Nat} (hn : s.nextSignificant i = some n)
    (h : s.holds n [w.piece] = true) : s.declaredName? i = some w.text := by
  obtain ⟨hat, hcontent, -⟩ := holds_cons_iff.1 h
  have hcontent := hcontent w.text rfl
  have hsign : s.content n ≠ ['&'] := by
    rw [hcontent]
    intro heq
    have hshaped := w.shaped
    rw [heq] at hshaped
    revert hshaped
    decide
  simp only [TokenStream.declaredName?, hn, Option.bind_eq_bind, Option.bind_some, if_neg hsign]
  exact (if_pos hat).trans (congrArg some hcontent)

/-- The name that stands behind a keyword and a reference sign. -/
theorem declaredName?_of_sign {w : Word} {sign n : Nat} (hsign : s.nextSignificant i = some sign)
    (hcontent : s.content sign = ['&']) (hn : s.nextSignificant sign = some n)
    (h : s.holds n [w.piece] = true) : s.declaredName? i = some w.text := by
  obtain ⟨hat, hname, -⟩ := holds_cons_iff.1 h
  simp only [TokenStream.declaredName?, hsign, Option.bind_eq_bind, Option.bind_some,
    if_pos hcontent, hn]
  exact (if_pos hat).trans (congrArg some (hname w.text rfl))

/-! ## The way of the cursor -/

/-- The cursor of a body gets from one index to another, and finds some traits and some methods on its
way. -/
def Walks (s : TokenStream) (scope : NameScope) (closer i j : Nat) (traits methods : List Text) :
    Prop :=
  ∃ found, membersFrom s scope closer i = found ++ membersFrom s scope closer j ∧
    found.flatMap Declaration.Member.traitNames = traits ∧
    found.filterMap Declaration.Member.method? = methods

/-- Where the cursor does not move it finds nothing. -/
theorem Walks.refl (s : TokenStream) (scope : NameScope) (closer i : Nat) :
    Walks s scope closer i i [] [] :=
  ⟨[], rfl, rfl, rfl⟩

/-- Two ways of the cursor make one, and what is found adds up. -/
theorem Walks.trans {traits methods traits' methods' : List Text}
    (h : Walks s scope closer i j traits methods) (h' : Walks s scope closer j k traits' methods') :
    Walks s scope closer i k (traits ++ traits') (methods ++ methods') := by
  obtain ⟨found, hfound, rfl, rfl⟩ := h
  obtain ⟨found', hfound', rfl, rfl⟩ := h'
  refine ⟨found ++ found', ?_, List.flatMap_append, List.filterMap_append⟩
  rw [hfound, hfound', List.append_assoc]

/-- One step of the cursor. -/
theorem walks_step {m : Declaration.Member} (hi : i < closer) (hm : memberAt s scope i = m)
    (hj : memberNext s closer i = j) : Walks s scope closer i j m.traitNames m.method?.toList := by
  subst hm hj
  refine ⟨[memberAt s scope i], ?_, ?_, ?_⟩
  · rw [Declaration.membersFrom_of_lt hi]
    rfl
  · exact List.append_nil _
  · cases hmethod : (memberAt s scope i).method? with
    | none => exact List.filterMap_cons_none hmethod
    | some name => exact List.filterMap_cons_some hmethod

/-- At anything but a method the cursor goes on to the next token. -/
theorem memberNext_of_not_function (closer : Nat) (hi : s.isAt i (.keyword .kwFunction) = false) :
    startsMethod s i = false ∧ memberNext s closer i = i + 1 := by
  have hmethod : startsMethod s i = false := by
    rw [startsMethod, hi]
    rfl
  refine ⟨hmethod, ?_⟩
  rw [memberNext, memberEnd, hmethod]
  rfl

/-- Over quiet code the cursor goes token by token. -/
theorem walks_quiet (h : s.holds i ps = true) (hquiet : ∀ p ∈ ps, isQuiet p.kind = true)
    (hcloser : i + ps.length ≤ closer) : Walks s scope closer i (i + ps.length) [] [] := by
  induction ps generalizing i with
  | nil => exact Walks.refl s scope closer i
  | cons p ps ih =>
    obtain ⟨hat, -, hrest⟩ := holds_cons_iff.1 h
    rw [List.length_cons, Nat.add_comm _ 1, ← Nat.add_assoc] at hcloser ⊢
    have hp := hquiet p List.mem_cons_self
    rw [isQuiet, Bool.and_eq_true, bne_iff_ne, bne_iff_ne] at hp
    have hnot {k : Kind} (hk : p.kind ≠ k) : s.isAt i k = false := by
      rw [TokenStream.isAt, TokenStream.isAt_iff.1 hat]
      simpa using hk
    obtain ⟨hmethod, hnext⟩ := memberNext_of_not_function closer (hnot hp.1)
    have hmember : memberAt s scope i = .other := by
      rw [memberAt, hmethod, hnot hp.2]
      rfl
    exact (walks_step (by omega) hmember hnext).trans
      (ih hrest (fun q hq => hquiet q (List.mem_cons_of_mem p hq)) hcloser)

/-! ## Blocks -/

section Blocks

variable {block? : Option (Stretch f)}

/-- A block or the semicolon in its place ends a list of names and a header. -/
theorem exists_blockPieces (block? : Option (Stretch f)) :
    ∃ p ps, blockPieces block? = p :: ps ∧ p.kind.endsNames = true := by
  cases block? with
  | none => exact ⟨_, _, rfl, rfl⟩
  | some block => exact ⟨_, _, rfl, rfl⟩

/-- A quiet block, and the semicolon in its place, are quiet. -/
theorem isQuiet_of_mem_blockPieces {block? : Option (Stretch isQuiet)} {p : Piece}
    (hp : p ∈ blockPieces block?) : isQuiet p.kind = true := by
  cases block? with
  | none =>
    rw [List.mem_singleton.1 hp]
    rfl
  | some block =>
    rcases List.mem_cons.1 hp with rfl | hp
    · rfl
    rcases List.mem_append.1 hp with hp | hp
    · exact block.fits_of_mem_pieces hp
    · rw [List.mem_singleton.1 hp]
      rfl

/-- A block, and the semicolon in its place, have their brackets closed. -/
theorem isClosed_blockPieces (block? : Option (Stretch f)) :
    IsClosed ((blockPieces block?).map Piece.kind) := by
  cases block? with
  | none => exact .cons rfl .nil
  | some block =>
    rw [blockPieces, List.map_cons, List.map_append]
    exact .wrap .curly block.isClosed_pieces .nil

end Blocks

/-! ## Trait uses -/

namespace TraitUse

/-- **A trait use is read**: its names are found, resolved at the keyword. -/
theorem walks (u : TraitUse) (h : s.holds i u.pieces = true) (hcloser : i + u.pieces.length ≤ closer) :
    Walks s scope closer i (i + u.pieces.length) (u.names.texts.map (scope.qualify · i)) [] := by
  obtain ⟨p, ps, hblock, hends⟩ := exists_blockPieces u.block?
  obtain ⟨hat, -, hrest⟩ := holds_cons_iff.1 h
  have hfunction : s.isAt i (.keyword .kwFunction) = false := by
    rw [TokenStream.isAt, TokenStream.isAt_iff.1 hat]
    rfl
  obtain ⟨hmethod, hnext⟩ := memberNext_of_not_function closer hfunction
  have hnames : namesAfter s scope i = u.names.texts.map (scope.qualify · i) := by
    rw [hblock] at hrest
    exact namesAfter_names hrest hends
  have hmember : memberAt s scope i = .traits (u.names.texts.map (scope.qualify · i)) := by
    rw [memberAt, hmethod, hat, hnames]
    rfl
  have hbehind : ∀ q ∈ u.after.pieces ++ (u.names.pieces ++ (u.before.pieces ++ blockPieces u.block?)),
      isQuiet q.kind = true := by
    intro q hq
    rcases List.mem_append.1 hq with hq | hq
    · exact isQuiet_of_isTrivia (u.after.fits_of_mem_pieces hq)
    rcases List.mem_append.1 hq with hq | hq
    · exact isQuiet_of_isInNames (u.names.isInNames_of_mem_pieces hq)
    rcases List.mem_append.1 hq with hq | hq
    · exact isQuiet_of_isTrivia (u.before.fits_of_mem_pieces hq)
    · exact isQuiet_of_mem_blockPieces hq
  rw [pieces, List.length_cons, Nat.add_comm _ 1, ← Nat.add_assoc] at hcloser ⊢
  have hwalk := (walks_step (by omega) hmember hnext).trans (walks_quiet hrest hbehind hcloser)
  rwa [List.append_nil] at hwalk

end TraitUse

/-! ## Methods -/

namespace Method

variable (m : Method)

/-- In front of the name of a method stand gaps, and perhaps a reference sign. -/
theorem isMethodHead_of_mem_nameFront : ∀ p ∈ m.nameFront, isMethodHead p.kind = true := by
  intro p hp
  unfold nameFront at hp
  rcases List.mem_append.1 hp with hp | hp
  · exact isMethodHead_of_isTrivia (m.after.fits_of_mem_pieces hp)
  · cases hreference : m.reference? with
    | none =>
      rw [hreference] at hp
      cases hp
    | some gap =>
      rw [hreference] at hp
      rcases List.mem_cons.1 hp with rfl | hp
      · rfl
      · exact isMethodHead_of_isTrivia (gap.fits_of_mem_pieces hp)

/-- Between the keyword and the parameters stand a reference sign, the name and gaps, and nothing else.
-/
theorem isMethodHead_of_mem_head : ∀ p ∈ m.head, isMethodHead p.kind = true := by
  intro p hp
  rcases List.mem_append.1 hp with hp | hp
  · exact m.isMethodHead_of_mem_nameFront p hp
  · rcases List.mem_cons.1 hp with rfl | hp
    · rfl
    · exact isMethodHead_of_isTrivia (m.before.fits_of_mem_pieces hp)

/-- The name of a method is found behind its keyword, and the reference sign if there is one. -/
theorem declaredName?_eq (h : s.holds i m.fromKeyword = true) :
    s.declaredName? i = some m.name.text := by
  obtain ⟨-, -, hrest⟩ := holds_cons_iff.1 h
  obtain ⟨hname, -⟩ := holds_append_iff.1 hrest
  unfold head at hname
  cases hreference : m.reference? with
  | none =>
    rw [nameFront, hreference, List.append_nil] at hname
    exact declaredName?_of_name (findNext_gap hname rfl)
      (holds_first (holds_append_iff.1 hname).2)
  | some gap =>
    rw [nameFront, hreference, List.append_assoc, List.cons_append] at hname
    obtain ⟨-, hsign, hbehind⟩ := holds_cons_iff.1 (holds_append_iff.1 hname).2
    exact declaredName?_of_sign (findNext_gap hname rfl) (hsign ['&'] rfl)
      (findNext_gap hbehind rfl) (holds_first (holds_append_iff.1 hbehind).2)

/-- The index behind the parameters of a method whose keyword stands at an index. -/
def behindParameters (i : Nat) : Nat := i + 1 + m.head.length + 1 + m.parameters.pieces.length + 1

/-- The parameters of a method stand in the first round brackets behind its keyword. -/
theorem bodySearchStart?_eq (h : s.holds i m.fromKeyword = true) :
    s.bodySearchStart? i = some (m.behindParameters i) := by
  obtain ⟨hat, -, hrest⟩ := holds_cons_iff.1 h
  have hfunction : s.has i isFunctionKeyword = true := TokenStream.has_of_isAt hat _
  have hopener : s.findNext (· == .opens .round) (i + 1) = some (i + 1 + m.head.length) :=
    findNext_piece hrest (fun p hp => Kind.beq_eq_false_of (m.isMethodHead_of_mem_head p hp) rfl) rfl
  have hcloser := TokenStream.partner?_of_holds (holds_append_iff.1 hrest).2 m.parameters.isClosed_pieces
  rw [TokenStream.bodySearchStart?, if_pos hfunction, hopener, Option.bind_eq_bind, Option.bind_some,
    hcloser]
  rfl

/-- The tokens from the keyword to the body, or to the semicolon in its place. -/
def front : List Piece :=
  { kind := .keyword .kwFunction } :: (m.head ++ { kind := .opens .round } ::
    (m.parameters.pieces ++ { kind := .closes .round } :: m.returns.pieces))

/-- A method is its front and its body. -/
theorem fromKeyword_eq : m.fromKeyword = m.front ++ blockPieces m.body? := by
  simp only [fromKeyword, front, List.cons_append, List.append_assoc]

/-- The front of a method ends behind the type of its value. -/
theorem length_front (i : Nat) : i + m.front.length = m.behindParameters i + m.returns.pieces.length := by
  simp only [front, behindParameters, List.length_cons, List.length_append]
  omega

/-- No brace that opens a body and no semicolon stands in front of the body. -/
theorem isHeader_of_mem_front : ∀ p ∈ m.front, isHeader p.kind = true := by
  intro p hp
  rcases List.mem_cons.1 hp with rfl | hp
  · rfl
  rcases List.mem_append.1 hp with hp | hp
  · exact isHeader_of_isMethodHead (m.isMethodHead_of_mem_head p hp)
  rcases List.mem_cons.1 hp with rfl | hp
  · rfl
  rcases List.mem_append.1 hp with hp | hp
  · exact m.parameters.fits_of_mem_pieces hp
  rcases List.mem_cons.1 hp with rfl | hp
  · rfl
  · exact m.returns.fits_of_mem_pieces hp

/-- Behind the parameters stand the type of the value and the body. -/
theorem holds_returns (h : s.holds i m.fromKeyword = true) :
    s.holds (m.behindParameters i) (m.returns.pieces ++ blockPieces m.body?) = true := by
  have hround := (holds_append_iff.1 (holds_cons_iff.1 h).2.2).2
  exact (holds_cons_iff.1 (holds_append_iff.1 (holds_cons_iff.1 hround).2.2).2).2.2

/-- The search for a body goes past the type of the method's value. -/
theorem findNext_block {p : Piece} {ps : List Piece} (h : s.holds i m.fromKeyword = true)
    (hblock : blockPieces m.body? = p :: ps) (hp : endsHeader p.kind = true) :
    s.findNext endsHeader (m.behindParameters i) = some (i + m.front.length) := by
  have hreturns := m.holds_returns h
  rw [hblock] at hreturns
  rw [length_front]
  refine findNext_piece hreturns (fun q hq => ?_) hp
  have hq := m.returns.fits_of_mem_pieces hq
  rwa [isHeader, Bool.not_eq_true'] at hq

/-- What opens the body of a method is the brace behind its front, if there is a brace. -/
theorem bodyOpener?_eq {p : Piece} {ps : List Piece} (h : s.holds i m.fromKeyword = true)
    (hblock : blockPieces m.body? = p :: ps) (hp : endsHeader p.kind = true) :
    s.bodyOpener? i = if p.kind = .opens .curly then some (i + m.front.length) else none := by
  have hat : s.isAt (i + m.front.length) p.kind = true := by
    rw [fromKeyword_eq, hblock] at h
    exact (holds_cons_iff.1 (holds_append_iff.1 h).2).1
  have hfound := m.findNext_block h hblock hp
  unfold endsHeader at hfound
  rw [TokenStream.bodyOpener?, m.bodySearchStart?_eq h, Option.bind_eq_bind, Option.bind_some, hfound,
    Option.bind_some, TokenStream.isAt, TokenStream.isAt_iff.1 hat]
  simp only [beq_iff_eq, Option.some.injEq]

/-- **The cursor jumps over a method**, whatever stands in its body. -/
theorem memberEnd_eq (h : s.holds i m.fromKeyword = true) (hmethod : startsMethod s i = true)
    (closer : Nat) : memberEnd s closer i + 1 = i + m.fromKeyword.length := by
  have hparts := h
  rw [fromKeyword_eq] at hparts
  obtain ⟨-, hending⟩ := holds_append_iff.1 hparts
  rw [fromKeyword_eq, List.length_append, ← Nat.add_assoc, memberEnd, if_pos hmethod]
  cases hbody : m.body? with
  | none =>
    have hpieces : blockPieces m.body? = [{ kind := .semicolon }] := by rw [hbody]; rfl
    have hopener := m.bodyOpener?_eq h hpieces rfl
    rw [if_neg (by decide)] at hopener
    rw [hpieces] at hparts
    have hsemicolon : s.findNext (· == .semicolon) i = some (i + m.front.length) :=
      findNext_piece hparts (fun p hp => Kind.beq_eq_false_of (m.isHeader_of_mem_front p hp) rfl) rfl
    rw [TokenStream.bodyCloser?, hopener, hsemicolon]
    rfl
  | some body =>
    have hpieces : blockPieces m.body? =
        { kind := .opens .curly } :: (body.pieces ++ [{ kind := .closes .curly }]) := by
      rw [hbody]; rfl
    have hopener := m.bodyOpener?_eq h hpieces rfl
    rw [if_pos rfl] at hopener
    rw [hpieces] at hending
    rw [TokenStream.bodyCloser?, hopener, Option.bind_some,
      TokenStream.partner?_of_holds hending body.isClosed_pieces, blockPieces, List.length_cons,
      List.length_append, List.length_singleton]
    dsimp only
    omega

/-- At the keyword of a method stands a method. -/
theorem startsMethod_eq (h : s.holds i m.fromKeyword = true) : startsMethod s i = true := by
  have hat := (holds_cons_iff.1 h).1
  rw [startsMethod, TokenStream.isClosure, hat, m.declaredName?_eq h]
  rfl

/-- **A method is read**: its name is found and nothing else. -/
theorem walks (h : s.holds i m.pieces = true) (hcloser : i + m.pieces.length ≤ closer) :
    Walks s scope closer i (i + m.pieces.length) [] [m.name.text] := by
  obtain ⟨hmodifiers, hkeyword⟩ := holds_append_iff.1 h
  rw [pieces, List.length_append, ← Nat.add_assoc] at hcloser ⊢
  have hlength : 0 < m.fromKeyword.length := Nat.succ_pos _
  have hmethod := m.startsMethod_eq hkeyword
  have hmember : memberAt s scope (i + m.modifiers.pieces.length) = .method m.name.text := by
    rw [memberAt, if_pos hmethod, m.declaredName?_eq hkeyword]
  have hquiet : ∀ p ∈ m.modifiers.pieces, isQuiet p.kind = true := fun p hp =>
    isQuiet_of_isBeforeMethod (m.modifiers.fits_of_mem_pieces hp)
  exact (walks_quiet hmodifiers hquiet (by omega)).trans
    (walks_step (by omega) hmember (m.memberEnd_eq hkeyword hmethod closer))

end Method

/-! ## Members -/

/-- In a trait use all brackets are closed. -/
theorem TraitUse.isClosed_pieces (u : TraitUse) : IsClosed (u.pieces.map Piece.kind) := by
  rw [pieces, List.map_cons, List.map_append, List.map_append, List.map_append]
  exact .cons rfl (u.after.isClosed_pieces.append
    (u.names.isClosed_pieces.append (u.before.isClosed_pieces.append (isClosed_blockPieces u.block?))))

/-- Between the keyword and the parameters of a method no bracket stands. -/
theorem Method.isClosed_head (m : Method) : IsClosed (m.head.map Piece.kind) := by
  have hfront : IsClosed (m.nameFront.map Piece.kind) := by
    rw [nameFront, List.map_append]
    refine m.after.isClosed_pieces.append ?_
    cases m.reference? with
    | none => exact .nil
    | some gap => exact .cons rfl gap.isClosed_pieces
  rw [head, List.map_append, List.map_cons]
  exact hfront.append (.cons rfl m.before.isClosed_pieces)

/-- In a method all brackets are closed. -/
theorem Method.isClosed_pieces (m : Method) : IsClosed (m.pieces.map Piece.kind) := by
  rw [pieces, fromKeyword, List.map_append, List.map_cons, List.map_append, List.map_cons,
    List.map_append, List.map_cons, List.map_append]
  exact m.modifiers.isClosed_pieces.append (.cons rfl (m.isClosed_head.append
    (.wrap .round m.parameters.isClosed_pieces
      (m.returns.isClosed_pieces.append (isClosed_blockPieces m.body?)))))

/-- In a member all brackets are closed. -/
theorem Member.isClosed_pieces (m : Member) : IsClosed (m.pieces.map Piece.kind) := by
  cases m with
  | use u => exact u.isClosed_pieces
  | method m => exact m.isClosed_pieces
  | other code => exact code.isClosed_pieces

/-- **A member is read.**  The cursor finds the traits of a trait use and the name of a method. -/
theorem Member.walks (m : Member) (h : s.holds i m.pieces = true)
    (hcloser : i + m.pieces.length ≤ closer) :
    Walks s scope closer i (i + m.pieces.length) (m.traits scope i) m.method?.toList := by
  cases m with
  | use u => exact u.walks h hcloser
  | method m => exact m.walks h hcloser
  | other code => exact walks_quiet h (fun _ hp => code.fits_of_mem_pieces hp) hcloser

/-- **Members are read** one after another, none of them left out. -/
theorem walks_members (ms : List Member) (h : s.holds i (ms.flatMap Member.pieces) = true)
    (hcloser : i + (ms.flatMap Member.pieces).length ≤ closer) :
    Walks s scope closer i (i + (ms.flatMap Member.pieces).length) (Member.traitsFrom scope i ms)
      (ms.filterMap Member.method?) := by
  induction ms generalizing i with
  | nil => exact Walks.refl s scope closer i
  | cons m ms ih =>
    obtain ⟨hfirst, hrest⟩ := holds_append_iff.1 h
    rw [List.flatMap_cons, List.length_append, ← Nat.add_assoc] at hcloser ⊢
    have hmethods : (m :: ms).filterMap Member.method? =
        m.method?.toList ++ ms.filterMap Member.method? := by
      cases hmethod : m.method? with
      | none => exact List.filterMap_cons_none hmethod
      | some name => exact List.filterMap_cons_some hmethod
    rw [hmethods]
    exact (m.walks hfirst (by omega)).trans (ih hrest hcloser)

end PhpLint.Grammar

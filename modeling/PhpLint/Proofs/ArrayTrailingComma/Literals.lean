import PhpLint.Proofs.Grammar.TypeDeclaration
import PhpLint.Proofs.LineEnds.Finding

/-!
# The two forms of an array literal

An array is written `[…]` or `array(…)`, and its elements are code whose brackets are closed.  The
pass that pairs the delimiters knows the `#[` of an attribute for a sign, so the square bracket at its
end closes something else, and this is the one thing that goes wrong in balanced code: the pass
**sheds** square brackets that still have to wait (`sheds_of_balanced`).  It never sheds another
bracket, nor one around code whose attributes all stand inside of round or curly brackets
(`keeps_of_balanced`).

From this follows what is reported of both forms (`literals_alike`): a comma behind the last element,
whatever white space and comments follow it.  The short form is left alone where the token in front
can be indexed, and for its elements attributes have to be sheltered.
-/

namespace PhpLint

open Pairing (Waiting step waitingAfter Keeps)

namespace Grammar

/-- The two characters that open an attribute. -/
def attributeOpener : Piece := ⟨.operator, some "#[".toList⟩

/-- Code whose brackets are closed, those of attributes among them.  Attributes are `exposed` when they
may stand outside of all brackets but square ones. -/
inductive Balanced : (exposed : Bool) → List Piece → Prop
  | nil {exposed : Bool} : Balanced exposed []
  | plain {exposed : Bool} {p : Piece} {ps : List Piece} (hp : p.kind.isDelimiter = false)
      (rest : Balanced exposed ps) : Balanced exposed (p :: ps)
  | square {exposed : Bool} {inner ps : List Piece} (inside : Balanced exposed inner)
      (rest : Balanced exposed ps) :
      Balanced exposed ({ kind := .opens .square } :: (inner ++ { kind := .closes .square } :: ps))
  | wrap {exposed : Bool} {d : Delimiter} {inner ps : List Piece} (hd : d ≠ .square)
      (inside : Balanced true inner) (rest : Balanced exposed ps) :
      Balanced exposed ({ kind := .opens d } :: (inner ++ { kind := .closes d } :: ps))
  | annotated {inner ps : List Piece} (inside : Balanced true inner) (rest : Balanced true ps) :
      Balanced true (attributeOpener :: (inner ++ { kind := .closes .square } :: ps))

end Grammar

namespace Pairing

open Grammar (Balanced)

/-- The openers that wait are those that waited before, less some square brackets on top, and less none
where attributes are not exposed. -/
def Sheds (exposed : Bool) (before after : List Waiting) : Prop :=
  ∃ shed, before = shed ++ after ∧ ∀ w ∈ shed, exposed = true ∧ w.delimiter = .square

namespace Sheds

variable {exposed : Bool} {before between after outer : List Waiting} {w : Waiting}

/-- Where nothing is shed, what waits is what waited before. -/
theorem refl (exposed : Bool) (waiting : List Waiting) : Sheds exposed waiting waiting :=
  ⟨[], rfl, fun _ hw => absurd hw List.not_mem_nil⟩

/-- Shedding twice is shedding once. -/
theorem trans (h : Sheds exposed before between) (h' : Sheds exposed between after) :
    Sheds exposed before after := by
  obtain ⟨shed, rfl, hshed⟩ := h
  obtain ⟨shed', rfl, hshed'⟩ := h'
  refine ⟨shed ++ shed', (List.append_assoc ..).symm, fun w hw => ?_⟩
  rcases List.mem_append.1 hw with hw | hw
  · exact hshed w hw
  · exact hshed' w hw

/-- An opener that is not shed waits on. -/
theorem eq_of_kept (h : Sheds exposed (w :: outer) after)
    (hkept : w.delimiter ≠ .square ∨ exposed = false) : after = w :: outer := by
  obtain ⟨shed, heq, hshed⟩ := h
  cases shed with
  | nil => exact heq.symm
  | cons x shed =>
    obtain ⟨rfl, -⟩ := List.cons.inj heq
    obtain ⟨hexposed, hsquare⟩ := hshed w List.mem_cons_self
    rcases hkept with hne | hnot
    · exact absurd hsquare hne
    · rw [hnot] at hexposed
      cases hexposed

/-- The end of an attribute sheds one square bracket at most. -/
theorem closer (i : Nat) (waiting : List Waiting) :
    Sheds true waiting (step i waiting (.closes .square)).1 := by
  cases waiting with
  | nil => exact refl true []
  | cons w outer =>
    by_cases hw : w.delimiter = .square
    · rw [step, if_pos hw]
      refine ⟨[w], rfl, fun x hx => ?_⟩
      rw [List.mem_singleton.1 hx]
      exact ⟨rfl, hw⟩
    · rw [step, if_neg hw]
      exact refl true (w :: outer)

/-- A closer takes its opener with it where that has not been shed, and else closes what the end of an
attribute would. -/
theorem pair {i j : Nat} (h : Sheds exposed (⟨i, .square⟩ :: outer) after) :
    Sheds exposed outer (step j after (.closes .square)).1 := by
  obtain ⟨shed, heq, hshed⟩ := h
  cases shed with
  | nil =>
    obtain rfl : (⟨i, .square⟩ : Waiting) :: outer = after := heq
    exact refl exposed outer
  | cons x shed =>
    obtain ⟨-, rfl⟩ := List.cons.inj heq
    obtain rfl := (hshed x List.mem_cons_self).1
    exact trans ⟨shed, rfl, fun w hw => hshed w (List.mem_cons_of_mem x hw)⟩ (closer j after)

end Sheds

/-- **Balanced code sheds nothing but square brackets**, and none without exposed attributes. -/
theorem sheds_of_balanced {exposed : Bool} {ps : List Piece} (h : Balanced exposed ps) (i : Nat)
    (waiting : List Waiting) :
    Sheds exposed waiting (waitingAfter i waiting (ps.map Piece.kind)) := by
  -- On the way the code is put together; in all cases but the first two what opens has to close.
  induction h generalizing i waiting with
  | @nil exposed => exact Sheds.refl exposed waiting
  | @plain exposed p ps hp _ ih =>
    have hstep : (step i waiting p.kind).1 = waiting := by
      cases hk : p.kind <;> first | rfl | (rw [hk] at hp; cases hp)
    rw [List.map_cons, waitingAfter, hstep]
    exact ih (i + 1) waiting
  | square _ _ hinside hrest =>
    rw [List.map_cons, List.map_append, List.map_cons, waitingAfter, waitingAfter_append,
      waitingAfter]
    exact (Sheds.pair (hinside (i + 1) (⟨i, .square⟩ :: waiting))).trans (hrest _ _)
  | @wrap exposed d inner ps hd _ _ hinside hrest =>
    have hopener := (hinside (i + 1) (⟨i, d⟩ :: waiting)).eq_of_kept (.inl hd)
    rw [List.map_cons, List.map_append, List.map_cons, waitingAfter, waitingAfter_append,
      waitingAfter, step, hopener, step, if_pos rfl]
    exact hrest _ waiting
  | annotated _ _ hinside hrest =>
    rw [List.map_cons, List.map_append, List.map_cons, waitingAfter, waitingAfter_append,
      waitingAfter]
    exact ((hinside (i + 1) waiting).trans (Sheds.closer _ _)).trans (hrest _ _)

/-- Brackets that are not square, and all brackets around code without exposed attributes, find their
closers. -/
theorem keeps_of_balanced {exposed : Bool} {ps : List Piece} (h : Balanced exposed ps)
    {d : Delimiter} (hkept : d ≠ .square ∨ exposed = false) : Keeps d (ps.map Piece.kind) :=
  fun i j outer => (sheds_of_balanced h i (⟨j, d⟩ :: outer)).eq_of_kept hkept

end Pairing

/-! ## The last piece of code -/

namespace TokenStream

variable {s : TokenStream} {i : Nat} {ps qs : List Piece} {p : Piece} {f : Kind → Bool}

/-- A search backward over a pattern finds the last piece that fits. -/
theorem findBefore_piece (h : s.holds i (ps ++ p :: qs) = true) (hp : f p.kind = true)
    (hf : ∀ q ∈ qs, f q.kind = false) :
    s.findBefore f (i + (ps ++ p :: qs).length) = some (i + ps.length) := by
  obtain ⟨-, hback⟩ := holds_append_iff.1 h
  obtain ⟨hat, -, hrest⟩ := holds_cons_iff.1 hback
  have hnot := not_has_of_holds hrest hf
  refine findBefore_eq_some_iff.2 ⟨?_, (has_of_isAt hat f).trans hp, fun k hlt hk => hnot k ?_⟩
  · rw [List.length_append, List.length_cons]
    omega
  · rw [List.length_append, List.length_cons] at hk
    exact List.mem_range'_1.2 ⟨hlt, by omega⟩

end TokenStream

namespace ArrayTrailingComma

open Grammar (Gap Balanced)

/-- The elements end in a comma with so many pieces in front, behind it only white space and
comments. -/
def EndsInComma (es : List Piece) (n : Nat) : Prop :=
  ∃ front p gap, es = front ++ p :: gap ∧ front.length = n ∧ p.kind = .comma ∧
    ∀ q ∈ gap, q.kind.isSignificant = false

/-- The pieces of `[…]`. -/
def shortForm (es : List Piece) : List Piece :=
  { kind := .opens .square } :: (es ++ [{ kind := .closes .square }])

/-- The pieces of `array(…)`. -/
def longForm (gap : Gap) (es : List Piece) : List Piece :=
  { kind := .keyword .kwArray } ::
    (gap.pieces ++ { kind := .opens .round } :: (es ++ [{ kind := .closes .round }]))

/-- What is to be found at elements that start at an index. -/
structure Judged (found : List Finding) (first : Nat) (es : List Piece) : Prop where
  comma : ∀ n, EndsInComma es n →
    found = [{ index := first + n, reason := "Found", message := "Trailing array comma is forbidden" }]
  none : (∀ n, ¬EndsInComma es n) → found = []

/-- Something is found exactly where the elements end in a comma. -/
theorem Judged.nonempty_iff {found : List Finding} {first : Nat} {es : List Piece}
    (h : Judged found first es) : found ≠ [] ↔ ∃ n, EndsInComma es n := by
  constructor
  · intro hfound
    by_contra hnone
    exact hfound (h.none fun n hn => hnone ⟨n, hn⟩)
  · rintro ⟨n, hn⟩
    rw [h.comma n hn]
    exact List.cons_ne_nil _ _

/-- Some code has a last piece that is no white space or comment, if it has one at all. -/
theorem exists_last_significant (es : List Piece) :
    (∀ q ∈ es, q.kind.isSignificant = false) ∨
      ∃ front p gap, es = front ++ p :: gap ∧ p.kind.isSignificant = true ∧
        ∀ q ∈ gap, q.kind.isSignificant = false := by
  induction es using List.reverseRecOn with
  | nil => exact .inl fun _ hq => absurd hq List.not_mem_nil
  | append_singleton es q ih =>
    cases hq : q.kind.isSignificant with
    | true => exact .inr ⟨es, q, [], rfl, hq, fun _ hx => absurd hx List.not_mem_nil⟩
    | false =>
      have hlast {xs : List Piece} (hxs : ∀ x ∈ xs, x.kind.isSignificant = false) :
          ∀ x ∈ xs ++ [q], x.kind.isSignificant = false := by
        intro x hx
        rcases List.mem_append.1 hx with hx | hx
        · exact hxs x hx
        · rw [List.mem_singleton.1 hx, hq]
      rcases ih with hnone | ⟨front, p, gap, rfl, hp, hgap⟩
      · exact .inl (hlast hnone)
      · exact .inr ⟨front, p, gap ++ [q], by rw [List.append_assoc, List.cons_append], hp, hlast hgap⟩

variable {ctx : FileContext} {s : TokenStream} {i opener closer last : Nat} {d : Delimiter}
  {gap : Gap} {exposed : Bool} {es : List Piece}

/-- In a literal whose brackets are a pair, the comma is the last code before the closing one. -/
theorem comma?_eq (hopener : opener? s i = some opener) (hcloser : s.partner? opener = some closer)
    (hlast : s.previousSignificant closer = some last) :
    comma? s i = if opener < last ∧ s.isAt last .comma then some last else none := by
  rw [comma?, hopener, Option.bind_eq_bind, Option.bind_some, hcloser, Option.bind_some, hlast,
    Option.bind_some]

/-- What is found at a literal whose opening bracket finds its closer. -/
theorem judged_of_opener (hopener : opener? ctx.stream i = some opener)
    (h : ctx.stream.holds opener ({ kind := .opens d } :: (es ++ [{ kind := .closes d }])) = true)
    (hd : (Kind.opens d).isSignificant = true) (hkeeps : Keeps d (es.map Piece.kind)) :
    Judged (findings ctx i) (opener + 1) es := by
  have hcloser := TokenStream.partner?_of_holds_keeps h hkeeps
  rw [← List.cons_append] at h
  have hliteral := (TokenStream.holds_append_iff.1 h).1
  have hlength : opener + 1 + es.length = opener + (({ kind := .opens d } : Piece) :: es).length := by
    rw [List.length_cons, Nat.add_assoc, Nat.add_comm 1]
  rw [hlength] at hcloser
  constructor
  case comma =>
    rintro n ⟨front, p, gap, rfl, rfl, hp, hgap⟩
    rw [← List.cons_append] at hliteral
    have hlast := TokenStream.findBefore_piece hliteral (f := Kind.isSignificant) (by rw [hp]; rfl) hgap
    have hcomma := (TokenStream.holds_cons_iff.1 (TokenStream.holds_append_iff.1 hliteral).2).1
    rw [hp] at hcomma
    rw [List.length_cons, Nat.add_comm front.length, ← Nat.add_assoc] at hlast hcomma
    rw [findings_eq, comma?_eq hopener hcloser hlast, if_pos ⟨by omega, hcomma⟩]
  case none =>
    intro hnone
    rcases exists_last_significant es with hblank | ⟨front, p, gap, rfl, hp, hgap⟩
    · rw [← List.nil_append (_ :: es)] at hliteral
      have hlast := TokenStream.findBefore_piece hliteral hd hblank
      rw [findings_eq, comma?_eq hopener hcloser hlast,
        if_neg fun h => absurd h.1 (Nat.lt_irrefl opener)]
    · rw [← List.cons_append] at hliteral
      have hlast := TokenStream.findBefore_piece hliteral hp hgap
      have hat := (TokenStream.holds_cons_iff.1 (TokenStream.holds_append_iff.1 hliteral).2).1
      rw [findings_eq, comma?_eq hopener hcloser hlast, if_neg]
      rintro ⟨-, hcomma⟩
      exact hnone front.length ⟨front, p, gap, rfl, rfl, TokenStream.eq_of_isAt hat hcomma, hgap⟩

/-- The long form is a literal wherever it stands. -/
theorem opener?_longForm (h : s.holds i (longForm gap es) = true) :
    opener? s i = some (i + gap.pieces.length + 1) := by
  obtain ⟨hat, -, hrest⟩ := TokenStream.holds_cons_iff.1 h
  have hround := (TokenStream.holds_cons_iff.1 (TokenStream.holds_append_iff.1 hrest).2).1
  have hgap : ∀ q ∈ gap.pieces, q.kind.isSignificant = false := by
    intro q hq
    rw [Kind.isSignificant, gap.fits_of_mem_pieces hq]
    rfl
  have hnext : s.nextSignificant i = some (i + 1 + gap.pieces.length) :=
    TokenStream.findNext_piece hrest hgap rfl
  have hsquare : ¬s.isAt i (.opens .square) = true := by
    intro hsquare
    cases TokenStream.eq_of_isAt hat hsquare
  rw [opener?, if_neg hsquare, if_pos hat, hnext, Option.filter_some, if_pos hround,
    Nat.add_right_comm]

/-- The token in front of an index can be indexed. -/
def Indexed (s : TokenStream) (i : Nat) : Prop :=
  (s.previousSignificant i).any (s.has · isIndexable) = true

instance (s : TokenStream) (i : Nat) : Decidable (Indexed s i) :=
  inferInstanceAs (Decidable (_ = true))

/-- The short form is a literal where the token in front cannot be indexed. -/
theorem opener?_shortForm (h : s.holds i (shortForm es) = true) (hfront : ¬Indexed s i) :
    opener? s i = some i := by
  unfold Indexed at hfront
  rw [opener?, if_pos (TokenStream.holds_cons_iff.1 h).1, if_neg hfront]

/-- Behind a token that can be indexed a square bracket is none of an array. -/
theorem findings_of_indexed (h : ctx.stream.holds i (shortForm es) = true)
    (hfront : Indexed ctx.stream i) : findings ctx i = [] := by
  unfold Indexed at hfront
  have hopener : opener? ctx.stream i = none := by
    rw [opener?, if_pos (TokenStream.holds_cons_iff.1 h).1, if_pos hfront]
  rw [findings_eq, comma?, hopener]
  rfl

/-- The long form is judged by its elements alone, whatever attributes they have. -/
theorem judged_longForm (hes : Balanced exposed es)
    (h : ctx.stream.holds i (longForm gap es) = true) :
    Judged (findings ctx i) (i + gap.pieces.length + 2) es := by
  have hround := (TokenStream.holds_append_iff.1 (TokenStream.holds_cons_iff.1 h).2.2).2
  rw [Nat.add_right_comm] at hround
  exact judged_of_opener (opener?_longForm h) hround rfl
    (Pairing.keeps_of_balanced hes (.inl (by decide)))

/-- The short form is judged by its elements alone where the token in front cannot be indexed and no
attribute is exposed. -/
theorem judged_shortForm (hes : Balanced false es)
    (h : ctx.stream.holds i (shortForm es) = true) (hfront : ¬Indexed ctx.stream i) :
    Judged (findings ctx i) (i + 1) es :=
  judged_of_opener (opener?_shortForm h hfront) h rfl (Pairing.keeps_of_balanced hes (.inr rfl))

/-- What is reported of literals with these elements, wherever they stand. -/
structure Alike (exposed : Bool) (es : List Piece) : Prop where
  long : ∀ (ctx : FileContext) i gap, ctx.stream.holds i (longForm gap es) = true →
    Judged (findings ctx i) (i + gap.pieces.length + 2) es
  short : exposed = false → ∀ (ctx : FileContext) i, ctx.stream.holds i (shortForm es) = true →
    ¬Indexed ctx.stream i → Judged (findings ctx i) (i + 1) es
  indexed : ∀ (ctx : FileContext) i, ctx.stream.holds i (shortForm es) = true →
    Indexed ctx.stream i → findings ctx i = []
  /-- One form is reported exactly when the other one is. -/
  alike : exposed = false → ∀ (ctx ctx' : FileContext) i i' gap,
    ctx.stream.holds i (shortForm es) = true → ¬Indexed ctx.stream i →
      ctx'.stream.holds i' (longForm gap es) = true → (findings ctx i ≠ [] ↔ findings ctx' i' ≠ [])

/-- **Both forms are treated alike**: a comma is reported exactly when it is the last code of the
elements.  Of the short form this holds where the token in front cannot be indexed, and where all
attributes among the elements stand in round or curly brackets. -/
theorem literals_alike (hes : Balanced exposed es) : Alike exposed es := by
  constructor
  case long => exact fun ctx i gap h => judged_longForm hes h
  case short =>
    rintro rfl ctx i h hfront
    exact judged_shortForm hes h hfront
  case indexed => exact fun ctx i h hfront => findings_of_indexed h hfront
  case alike =>
    rintro rfl ctx ctx' i i' gap h hfront h'
    rw [(judged_shortForm hes h hfront).nonempty_iff, (judged_longForm hes h').nonempty_iff]

section Samples

/-- The parameters of a function, the first one with an attribute. -/
def sampleParameters : List Piece :=
  Grammar.attributeOpener :: ([{ kind := .identifier }] ++ { kind := .closes .square } ::
    Piece.ofKinds [.whitespace, .variableName])

/-- Three elements, a function and an array and a number, and a comma with a comment behind it. -/
def sampleElements : List Piece :=
  { kind := .keyword .kwFn } :: { kind := .opens .round } :: (sampleParameters ++
    { kind := .closes .round } :: (Piece.ofKinds [.doubleArrow, .integer, .comma] ++
      { kind := .opens .square } :: (Piece.ofKinds [.integer, .comma] ++
        { kind := .closes .square } ::
          Piece.ofKinds [.comma, .integer, .comma, .whitespace, .comment])))

/-- The attribute of the sample stands inside of round brackets. -/
theorem balanced_sampleElements : Balanced false sampleElements := by
  have hparameters : Balanced true sampleParameters :=
    .annotated (.plain rfl .nil) (.plain rfl (.plain rfl .nil))
  have hnumber : Balanced false (Piece.ofKinds [.integer, .comma]) := .plain rfl (.plain rfl .nil)
  have hback : Balanced false (Piece.ofKinds [.comma, .integer, .comma, .whitespace, .comment]) :=
    .plain rfl (.plain rfl (.plain rfl (.plain rfl (.plain rfl .nil))))
  exact .plain rfl (.wrap (by decide) hparameters
    (.plain rfl (.plain rfl (.plain rfl (.square hnumber hback)))))

/-- Both forms in one file. -/
theorem literals_alike_both :
    Balanced false sampleElements ∧
      (∃ s, TokenStream.ofSource ("<?php\n[fn(#[A] $a)=>1,[2,],3, /**/];\n" ++
          "array(fn(#[A] $a)=>1,[2,],3, /**/);\n").toList = .ok s ∧
        s.holds 1 (shortForm sampleElements) = true ∧ ¬Indexed s 1 ∧
        s.holds 25 (longForm { kinds := [] } sampleElements) = true ∧
        comma? s 1 = some 19 ∧ comma? s 25 = some 44) ∧
      Alike false sampleElements := by
  refine ⟨balanced_sampleElements, ?_, literals_alike balanced_sampleElements⟩
  have hcomputed : (TokenStream.ofSource ("<?php\n[fn(#[A] $a)=>1,[2,],3, /**/];\n" ++
      "array(fn(#[A] $a)=>1,[2,],3, /**/);\n").toList).map
      (fun s => decide (s.holds 1 (shortForm sampleElements) = true ∧
        ¬Indexed s 1 ∧
        s.holds 25 (longForm { kinds := [] } sampleElements) = true ∧
        comma? s 1 = some 19 ∧ comma? s 25 = some 44)) = .ok true := by
    decide +kernel
  obtain ⟨s, hs, hall⟩ := TokenStream.exists_of_map_ofSource hcomputed
  exact ⟨s, hs, of_decide_eq_true hall⟩

/-- A number and a comma. -/
def oneNumber : List Piece := Piece.ofKinds [.integer, .comma]

/-- A function with an attribute and a comma. -/
def oneFunction : List Piece :=
  Grammar.attributeOpener :: Piece.ofKinds [.identifier, .closes .square, .whitespace, .keyword .kwFn,
    .opens .round, .closes .round, .doubleArrow, .integer, .comma]

/-- Behind a cast, and with an attribute in front of an element, the long form is reported and the
short form is not. -/
theorem findings_unlike :
    ∃ s, TokenStream.ofSource ("<?php\n(object)[1,];\n(object)array(1,);\n" ++
        "[#[A] fn()=>1,];\narray(#[A] fn()=>1,);\n").toList = .ok s ∧
      (s.holds 4 (shortForm oneNumber) = true ∧
        s.holds 13 (longForm { kinds := [] } oneNumber) = true ∧
        ∀ ctx : FileContext, ctx.stream = s → findings ctx 4 = [] ∧ findings ctx 13 ≠ []) ∧
      (s.holds 20 (shortForm oneFunction) = true ∧ ¬Indexed s 20 ∧
        s.holds 34 (longForm { kinds := [] } oneFunction) = true ∧
        ∀ ctx : FileContext, ctx.stream = s → findings ctx 20 = [] ∧ findings ctx 34 ≠ []) := by
  have hcomputed : (TokenStream.ofSource ("<?php\n(object)[1,];\n(object)array(1,);\n" ++
      "[#[A] fn()=>1,];\narray(#[A] fn()=>1,);\n").toList).map
      (fun s => decide (
        (s.holds 4 (shortForm oneNumber) = true ∧
          s.holds 13 (longForm { kinds := [] } oneNumber) = true ∧
          comma? s 4 = none ∧ comma? s 13 = some 16) ∧
        s.holds 20 (shortForm oneFunction) = true ∧
          ¬Indexed s 20 ∧
          s.holds 34 (longForm { kinds := [] } oneFunction) = true ∧
          comma? s 20 = none ∧ comma? s 34 = some 45)) = .ok true := by
    decide +kernel
  obtain ⟨s, hs, hall⟩ := TokenStream.exists_of_map_ofSource hcomputed
  obtain ⟨⟨hshort, hlong, hnone, hsome⟩, hshort', hfront, hlong', hnone', hsome'⟩ :=
    of_decide_eq_true hall
  refine ⟨s, hs, ⟨hshort, hlong, ?_⟩, hshort', hfront, hlong', ?_⟩
  · rintro ctx rfl
    rw [findings_eq, findings_eq, hnone, hsome]
    exact ⟨rfl, List.cons_ne_nil _ _⟩
  · rintro ctx rfl
    rw [findings_eq, findings_eq, hnone', hsome']
    exact ⟨rfl, List.cons_ne_nil _ _⟩

end Samples

end ArrayTrailingComma

end PhpLint

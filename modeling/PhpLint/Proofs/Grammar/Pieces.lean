import PhpLint.Proofs.Lexing.Search
import PhpLint.Proofs.Pairing.Nesting

/-!
# Patterns in a stream

A **pattern** is a list of pieces, each a kind and perhaps a text; `TokenStream.holds` says that the
tokens from an index on are those of a pattern.  Over a pattern a search is a walk: past the pieces that
do not fit (`findNext_skip`), up to the first one that does (`findNext_piece`).

A **stretch** is a list of kinds in which every bracket is closed, with a bound on what may stand in
it.  The pass that pairs the delimiters leaves a stretch with the openers it came with
(`waitingAfter_of_isClosed`), so the brackets around a stretch are partners whatever is in it
(`partner?_of_holds`).
-/

namespace PhpLint

/-! ## Closed brackets -/

/-- Every bracket of the list is closed by its own sort, the innermost first, and so are the brackets
that are open before it. -/
def closesAll : List Delimiter → List Kind → Bool
  | waiting, [] => waiting.isEmpty
  | waiting, .opens d :: kinds => closesAll (d :: waiting) kinds
  | [], .closes _ :: _ => false
  | e :: waiting, .closes d :: kinds => e == d && closesAll waiting kinds
  | waiting, _ :: kinds => closesAll waiting kinds

/-- Every bracket that the list opens is closed in it, and no other. -/
def IsClosed (kinds : List Kind) : Prop := closesAll [] kinds = true

instance (kinds : List Kind) : Decidable (IsClosed kinds) := inferInstanceAs (Decidable (_ = true))

/-- A kind that is no bracket leaves open what was open. -/
theorem closesAll_cons_of_plain {k : Kind} (hk : k.isDelimiter = false) (waiting : List Delimiter)
    (kinds : List Kind) : closesAll waiting (k :: kinds) = closesAll waiting kinds := by
  cases k
  case opens => cases hk
  case closes => cases hk
  all_goals cases waiting <;> rfl

/-- Past a list that closes what waits, only the openers below are left. -/
theorem closesAll_append {waiting : List Delimiter} {xs : List Kind} (h : closesAll waiting xs = true)
    (outer : List Delimiter) (ys : List Kind) :
    closesAll (waiting ++ outer) (xs ++ ys) = closesAll outer ys := by
  induction xs generalizing waiting with
  | nil =>
    rw [closesAll, List.isEmpty_iff] at h
    rw [h]
    rfl
  | cons k xs ih =>
    cases hk : k.isDelimiter with
    | false =>
      rw [closesAll_cons_of_plain hk] at h
      rw [List.cons_append, closesAll_cons_of_plain hk, ih h]
    | true =>
      cases k
      case opens d =>
        have hopen : closesAll (d :: waiting) xs = true := h
        exact ih hopen
      case closes d =>
        cases waiting with
        | nil => cases h
        | cons e waiting =>
          rw [closesAll, Bool.and_eq_true] at h
          rw [List.cons_append, List.cons_append, closesAll, h.1, Bool.true_and, ih h.2]
      all_goals cases hk

namespace IsClosed

theorem nil : IsClosed [] := rfl

theorem append {xs ys : List Kind} (hx : IsClosed xs) (hy : IsClosed ys) : IsClosed (xs ++ ys) :=
  (closesAll_append hx [] ys).trans hy

/-- Where there are no brackets they are all closed. -/
theorem of_plain {xs : List Kind} (hplain : ∀ k ∈ xs, k.isDelimiter = false) : IsClosed xs := by
  induction xs with
  | nil => rfl
  | cons k xs ih =>
    exact (closesAll_cons_of_plain (hplain k List.mem_cons_self) [] xs).trans
      (ih fun k' hk' => hplain k' (List.mem_cons_of_mem _ hk'))

theorem cons {k : Kind} {xs : List Kind} (hk : k.isDelimiter = false) (hx : IsClosed xs) :
    IsClosed (k :: xs) :=
  (closesAll_cons_of_plain hk [] xs).trans hx

/-- Brackets of one sort may be put around a part. -/
theorem wrap {xs ys : List Kind} (d : Delimiter) (hx : IsClosed xs) (hy : IsClosed ys) :
    IsClosed (.opens d :: (xs ++ .closes d :: ys)) := by
  have hback : closesAll [d] (.closes d :: ys) = true := by
    rw [closesAll, beq_self_eq_true, Bool.true_and]
    exact hy
  exact (closesAll_append hx [d] (.closes d :: ys)).trans hback

end IsClosed

namespace Pairing

/-- What waits after a list is what waited below the openers that the list closes. -/
theorem waitingAfter_of_closesAll {inner : List Waiting} {kinds : List Kind}
    (h : closesAll (inner.map Waiting.delimiter) kinds = true) (i : Nat) (outer : List Waiting) :
    waitingAfter i (inner ++ outer) kinds = outer := by
  induction kinds generalizing i inner with
  | nil =>
    rw [closesAll, List.isEmpty_iff, List.map_eq_nil_iff] at h
    rw [h]
    rfl
  | cons k kinds ih =>
    rw [waitingAfter]
    cases hk : k.isDelimiter with
    | false =>
      rw [closesAll_cons_of_plain hk] at h
      have hstep : (step i (inner ++ outer) k).1 = inner ++ outer := by
        cases k <;> first | rfl | cases hk
      rw [hstep, ih h]
    | true =>
      cases k
      case opens d =>
        have hopen : closesAll (List.map Waiting.delimiter (⟨i, d⟩ :: inner)) kinds = true := h
        exact ih hopen (i + 1)
      case closes d =>
        cases inner with
        | nil => cases h
        | cons w inner =>
          rw [List.map_cons, closesAll, Bool.and_eq_true, beq_iff_eq] at h
          rw [List.cons_append, step, if_pos h.1, ih h.2]
      all_goals cases hk

/-- A list with closed brackets leaves the stack of the pass as it was. -/
theorem waitingAfter_of_isClosed {kinds : List Kind} (h : IsClosed kinds) (i : Nat)
    (waiting : List Waiting) : waitingAfter i waiting kinds = waiting := by
  have hnone : closesAll (List.map Waiting.delimiter []) kinds = true := h
  exact waitingAfter_of_closesAll hnone i waiting

/-- The pass leaves an opener of this sort waiting across a list. -/
def Keeps (d : Delimiter) (kinds : List Kind) : Prop :=
  ∀ i j outer, waitingAfter i (⟨j, d⟩ :: outer) kinds = ⟨j, d⟩ :: outer

/-- Across closed brackets every opener waits on. -/
theorem keeps_of_isClosed {kinds : List Kind} (h : IsClosed kinds) (d : Delimiter) :
    Keeps d kinds :=
  fun i _ _ => waitingAfter_of_isClosed h i _

/-- The brackets around a list that leaves the first of them waiting are a pair. -/
theorem mem_pairs_of_keeps (xs : List Kind) {d : Delimiter} {ys : List Kind} (hy : Keeps d ys)
    (zs : List Kind) :
    (xs.length, xs.length + 1 + ys.length) ∈ pairs (xs ++ .opens d :: (ys ++ .closes d :: zs)) := by
  rw [pairs, pairsFrom_append, pairsFrom_cons, step, Option.toList_none, List.nil_append,
    pairsFrom_append, hy, pairsFrom_cons]
  simp [step]

end Pairing

namespace TokenStream

/-- The brackets around a list of tokens that leaves the first of them waiting are partners. -/
theorem partner?_of_keeps {s : TokenStream} {i : Nat} {d : Delimiter} {ys zs : List Kind}
    (h : s.kinds.drop i = .opens d :: (ys ++ .closes d :: zs)) (hy : Pairing.Keeps d ys) :
    s.partner? i = some (i + 1 + ys.length) := by
  have hlength : (s.kinds.take i).length = i := by
    refine List.length_take_of_le ?_
    by_contra hlt
    rw [List.drop_eq_nil_of_le (Nat.le_of_not_le hlt)] at h
    cases h
  have hpair := Pairing.mem_pairs_of_keeps (s.kinds.take i) hy zs
  rw [← h, List.take_append_drop, hlength] at hpair
  exact partner?_eq_some_iff.2 (.inl hpair)

end TokenStream

/-! ## Pieces -/

/-- What is asked of a token: its kind and, where it matters, its text. -/
structure Piece where
  kind : Kind
  text? : Option Text := none
  deriving DecidableEq, Repr

/-- Pieces of some kinds with any texts. -/
def Piece.ofKinds (kinds : List Kind) : List Piece := kinds.map fun k => { kind := k }

/-- The kinds of the pieces are those that they were made of. -/
theorem Piece.map_kind_ofKinds (kinds : List Kind) : (ofKinds kinds).map kind = kinds := by
  rw [ofKinds, List.map_map]
  exact List.map_id' kinds

/-- A list of kinds whose brackets are closed, all of which fit. -/
structure Stretch (p : Kind → Bool) where
  kinds : List Kind
  closed : IsClosed kinds := by decide
  fits : ∀ k ∈ kinds, p k = true := by decide

namespace Stretch

/-- The stretch as a pattern. -/
def pieces {p : Kind → Bool} (x : Stretch p) : List Piece := Piece.ofKinds x.kinds

/-- The kinds of the pattern are those of the stretch. -/
theorem map_kind_pieces {p : Kind → Bool} (x : Stretch p) : x.pieces.map Piece.kind = x.kinds :=
  Piece.map_kind_ofKinds x.kinds

/-- Every piece of the pattern fits what the stretch is bound to. -/
theorem fits_of_mem_pieces {f : Kind → Bool} (x : Stretch f) {p : Piece} (hp : p ∈ x.pieces) :
    f p.kind = true := by
  obtain ⟨k, hk, rfl⟩ := List.mem_map.1 hp
  exact x.fits k hk

/-- The brackets of the pattern are closed. -/
theorem isClosed_pieces {f : Kind → Bool} (x : Stretch f) : IsClosed (x.pieces.map Piece.kind) := by
  rw [map_kind_pieces]
  exact x.closed

end Stretch

namespace TokenStream

variable {s : TokenStream} {i : Nat} {ps qs : List Piece} {p : Piece} {f : Kind → Bool}

/-- The tokens from an index on are those of a pattern. -/
def holds (s : TokenStream) (i : Nat) : List Piece → Bool
  | [] => true
  | p :: ps => s.isAt i p.kind && p.text?.all (s.content i == ·) && s.holds (i + 1) ps

/-- A pattern stands at an index where its first piece does and the others stand behind. -/
theorem holds_cons_iff :
    s.holds i (p :: ps) = true ↔
      s.isAt i p.kind = true ∧ (∀ t ∈ p.text?, s.content i = t) ∧ s.holds (i + 1) ps = true := by
  rw [holds, Bool.and_eq_true, Bool.and_eq_true, Option.all_eq_true, and_assoc]
  simp only [beq_iff_eq, Option.mem_def]

/-- A pattern in two parts stands where the second part stands behind the first. -/
theorem holds_append : s.holds i (ps ++ qs) = (s.holds i ps && s.holds (i + ps.length) qs) := by
  induction ps generalizing i with
  | nil => rfl
  | cons p ps ih =>
    rw [List.cons_append, holds, holds, ih, List.length_cons, Nat.add_assoc i 1,
      Nat.add_comm 1, Bool.and_assoc (s.isAt i p.kind && _)]

/-- Two parts of a pattern stand one behind the other. -/
theorem holds_append_iff :
    s.holds i (ps ++ qs) = true ↔ s.holds i ps = true ∧ s.holds (i + ps.length) qs = true := by
  rw [holds_append, Bool.and_eq_true]

/-- The kinds from the index on are those of the pattern. -/
theorem drop_kinds_of_holds (h : s.holds i ps = true) :
    s.kinds.drop i = ps.map Piece.kind ++ s.kinds.drop (i + ps.length) := by
  induction ps generalizing i with
  | nil => rfl
  | cons p ps ih =>
    obtain ⟨hat, -, hrest⟩ := holds_cons_iff.1 h
    have hkind := isAt_iff.1 hat
    rw [← getElem?_kinds] at hkind
    obtain ⟨hlt, heq⟩ := List.getElem?_eq_some_iff.1 hkind
    rw [List.drop_eq_getElem_cons hlt, heq, ih hrest, List.length_cons, Nat.add_assoc,
      Nat.add_comm 1]
    rfl

/-- A pattern that stands in the stream ends in it. -/
theorem le_size_of_holds (h : s.holds i ps = true) (hi : i ≤ s.size) : i + ps.length ≤ s.size := by
  induction ps generalizing i with
  | nil => exact hi
  | cons p ps ih =>
    obtain ⟨hat, -, hrest⟩ := holds_cons_iff.1 h
    have hlt := lt_size_of_has (has_of_isAt hat fun _ => true)
    have hend := ih hrest hlt
    rw [List.length_cons]
    omega

/-- The brackets around a part of a pattern that leaves the first of them waiting are partners. -/
theorem partner?_of_holds_keeps {d : Delimiter}
    (h : s.holds i ({ kind := .opens d } :: (ps ++ { kind := .closes d } :: qs)) = true)
    (hkeeps : Pairing.Keeps d (ps.map Piece.kind)) : s.partner? i = some (i + 1 + ps.length) := by
  have hkinds := drop_kinds_of_holds h
  rw [List.map_cons, List.map_append, List.map_cons, List.cons_append, List.append_assoc,
    List.cons_append] at hkinds
  rw [partner?_of_keeps hkinds hkeeps, List.length_map]

/-- The brackets around a closed part of a pattern are partners. -/
theorem partner?_of_holds {d : Delimiter}
    (h : s.holds i ({ kind := .opens d } :: (ps ++ { kind := .closes d } :: qs)) = true)
    (hclosed : IsClosed (ps.map Piece.kind)) : s.partner? i = some (i + 1 + ps.length) :=
  partner?_of_holds_keeps h (Pairing.keeps_of_isClosed hclosed d)

/-- Over pieces that do not fit no index does. -/
theorem not_has_of_holds (h : s.holds i ps = true) (hf : ∀ p ∈ ps, f p.kind = false) :
    ∀ k ∈ List.range' i ps.length, s.has k f = false := by
  induction ps generalizing i with
  | nil =>
    intro k hk
    cases hk
  | cons p ps ih =>
    obtain ⟨hat, -, hrest⟩ := holds_cons_iff.1 h
    intro k hk
    rw [List.length_cons, List.range'_succ] at hk
    rcases List.mem_cons.1 hk with rfl | hk
    · rw [has_of_isAt hat]
      exact hf p List.mem_cons_self
    · exact ih hrest (fun q hq => hf q (List.mem_cons_of_mem p hq)) k hk

/-! ## Searches over a pattern -/

/-- A search goes past pieces that do not fit. -/
theorem findNext_skip (h : s.holds i ps = true) (hf : ∀ p ∈ ps, f p.kind = false) :
    s.findNext f i = s.findNext f (i + ps.length) := by
  induction ps generalizing i with
  | nil => rfl
  | cons p ps ih =>
    obtain ⟨hat, -, hrest⟩ := holds_cons_iff.1 h
    have hnot : s.has i f = false := by
      rw [has_of_isAt hat]
      exact hf p List.mem_cons_self
    rw [findNext_of_not_has hnot, ih hrest fun q hq => hf q (List.mem_cons_of_mem _ hq),
      List.length_cons, Nat.add_assoc, Nat.add_comm 1]

/-- A search over a pattern finds the first piece that fits. -/
theorem findNext_piece (h : s.holds i (ps ++ p :: qs) = true) (hf : ∀ q ∈ ps, f q.kind = false)
    (hp : f p.kind = true) : s.findNext f i = some (i + ps.length) := by
  obtain ⟨hfront, hback⟩ := holds_append_iff.1 h
  obtain ⟨hat, -, -⟩ := holds_cons_iff.1 hback
  rw [findNext_skip hfront hf]
  refine findNext_of_has ?_
  rw [has_of_isAt hat, hp]

end TokenStream

end PhpLint

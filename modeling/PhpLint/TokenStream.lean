import PhpLint.Token.Source
import PhpLint.TokenStream.Pairing

/-!
# Token streams

The tokens of one file in order, with the pairs of their delimiters worked out once.  Everything a
check asks of a file is a search from an index, forward or backward, for a token whose kind fits;
an index is a plain number, and one that lies outside of the stream finds nothing.

`findNext_eq_some_iff` and `findBelow_eq_some_iff` say what the two searches answer: the nearest
index that fits.  All other searches are one of the two.
-/

namespace PhpLint

/-- The tokens of a file and the partner of each delimiter. -/
structure TokenStream where
  tokens : Array Token
  partners : Array (Option Nat) := Pairing.partners tokens
  partners_eq : partners = Pairing.partners tokens := by rfl

/-- An index that was to be looked at lies outside of the stream. -/
inductive OutOfRange
  | index (i : Nat)
  deriving DecidableEq, Repr

namespace TokenStream

/-- The stream of a list of tokens. -/
def ofList (tokens : List Token) : TokenStream where
  tokens := tokens.toArray

/-- The stream of a source. -/
def ofSource (source : Text) : Except LexError TokenStream :=
  (Token.ofSource source).map ofList

/-- The number of tokens. -/
def size (s : TokenStream) : Nat := s.tokens.size

/-- The token at an index. -/
def token? (s : TokenStream) (i : Nat) : Option Token := s.tokens[i]?

/-- The kind of the token at an index. -/
def kind? (s : TokenStream) (i : Nat) : Option Kind := (s.token? i).map Token.kind

/-- A token stands at the index, and its kind fits. -/
def has (s : TokenStream) (i : Nat) (p : Kind → Bool) : Bool := (s.kind? i).any p

/-- A token of this kind stands at the index. -/
def isAt (s : TokenStream) (i : Nat) (k : Kind) : Bool := s.kind? i == some k

/-- The text of the token at an index, empty outside of the stream. -/
def content (s : TokenStream) (i : Nat) : Text := ((s.token? i).map Token.content).getD []

/-- The line of the token at an index, zero outside of the stream. -/
def line (s : TokenStream) (i : Nat) : Nat := ((s.token? i).map Token.line).getD 0

/-- An answer about the token at an index, which has to lie in the stream. -/
def ask (s : TokenStream) (i : Nat) (answer : TokenStream → Nat → α) : Except OutOfRange α :=
  if i < s.size then .ok (answer s i) else .error (.index i)

/-! ## Searching -/

/-- The first of the `n` indices from `i` on that fits. -/
def findFrom (s : TokenStream) (p : Kind → Bool) : (n i : Nat) → Option Nat
  | 0, _ => none
  | n + 1, i => if s.has i p then some i else s.findFrom p n (i + 1)

/-- The first index at or after `start` whose kind fits. -/
def findNext (s : TokenStream) (p : Kind → Bool) (start : Nat) : Option Nat :=
  s.findFrom p (s.size - start) start

/-- The first index at or after `start` and before `stop` whose kind fits. -/
def findNextBefore (s : TokenStream) (p : Kind → Bool) (start stop : Nat) : Option Nat :=
  (s.findNext p start).filter (· < stop)

/-- The last index below `n` whose kind fits. -/
def findBelow (s : TokenStream) (p : Kind → Bool) : Nat → Option Nat
  | 0 => none
  | n + 1 => if s.has n p then some n else s.findBelow p n

/-- The last index at or before `last` whose kind fits. -/
def findPrevious (s : TokenStream) (p : Kind → Bool) (last : Nat) : Option Nat :=
  s.findBelow p (min (last + 1) s.size)

/-- The last index before `i` whose kind fits. -/
def findBefore (s : TokenStream) (p : Kind → Bool) (i : Nat) : Option Nat :=
  s.findBelow p (min i s.size)

/-- The next index after `i` that carries code. -/
def nextSignificant (s : TokenStream) (i : Nat) : Option Nat :=
  s.findNext Kind.isSignificant (i + 1)

/-- The last index before `i` that carries code. -/
def previousSignificant (s : TokenStream) (i : Nat) : Option Nat :=
  s.findBefore Kind.isSignificant i

/-! ## The token at an index -/

section Token

variable {s : TokenStream} {i : Nat} {t : Token}

/-- What is asked of an index is told by the token there. -/
theorem kind?_of_token? (h : s.token? i = some t) : s.kind? i = some t.kind := by
  rw [kind?, h, Option.map_some]

theorem content_of_token? (h : s.token? i = some t) : s.content i = t.content := by
  rw [content, h, Option.map_some, Option.getD_some]

theorem line_of_token? (h : s.token? i = some t) : s.line i = t.line := by
  rw [line, h, Option.map_some, Option.getD_some]

theorem has_of_token? (h : s.token? i = some t) (p : Kind → Bool) : s.has i p = p t.kind := by
  rw [has, kind?_of_token? h, Option.any_some]

end Token

/-- A token of a kind is at an index when that is the kind found there. -/
theorem isAt_iff {s : TokenStream} {i : Nat} {k : Kind} :
    s.isAt i k = true ↔ s.kind? i = some k :=
  beq_iff_eq

/-- Where a token of a kind is found, there is one of that kind. -/
theorem exists_of_isAt {s : TokenStream} {i : Nat} {k : Kind} (h : s.isAt i k = true) :
    ∃ t, s.token? i = some t ∧ t.kind = k :=
  Option.map_eq_some_iff.1 (isAt_iff.1 h)

/-- Whether a token is of a kind is told by the token. -/
theorem isAt_of_token? {s : TokenStream} {i : Nat} {t : Token} (h : s.token? i = some t) (k : Kind) :
    s.isAt i k = true ↔ t.kind = k := by
  rw [isAt_iff, kind?_of_token? h, Option.some.injEq]

/-- Where the kind at an index is known, a condition on it is a condition on that kind. -/
theorem has_of_isAt {s : TokenStream} {i : Nat} {k : Kind} (h : s.isAt i k = true)
    (p : Kind → Bool) : s.has i p = p k := by
  rw [has, isAt_iff.1 h]
  rfl

/-- Only an index of the stream fits a condition. -/
theorem lt_size_of_has {s : TokenStream} {i : Nat} {p : Kind → Bool} (h : s.has i p = true) :
    i < s.size := by
  by_cases hi : i < s.size
  · exact hi
  · have : s.token? i = none := Array.getElem?_eq_none (Nat.le_of_not_lt hi)
    simp [has, kind?, this] at h

/-- Of so many indices from one on, the first that fits is found. -/
theorem findFrom_eq_some_iff {s : TokenStream} {p : Kind → Bool} {n i j : Nat} :
    s.findFrom p n i = some j ↔
      i ≤ j ∧ j < i + n ∧ s.has j p = true ∧ ∀ k, i ≤ k → k < j → s.has k p = false := by
  induction n generalizing i with
  | zero => simp [findFrom]; omega
  | succ n ih =>
    rw [findFrom]
    split
    · next h =>
      constructor
      · rintro ⟨rfl⟩
        exact ⟨Nat.le_refl _, by omega, h, fun k h1 h2 => by omega⟩
      · rintro ⟨h1, _, _, h4⟩
        by_cases hij : i = j
        · rw [hij]
        · have := h4 i (Nat.le_refl _) (by omega)
          simp [h] at this
    · next h =>
      rw [ih]
      constructor
      · rintro ⟨h1, h2, h3, h4⟩
        refine ⟨by omega, by omega, h3, fun k hk1 hk2 => ?_⟩
        by_cases hik : i = k
        · subst hik; simpa using h
        · exact h4 k (by omega) hk2
      · rintro ⟨h1, h2, h3, h4⟩
        have hij : i ≠ j := by
          rintro rfl
          exact h h3
        exact ⟨by omega, by omega, h3, fun k hk1 hk2 => h4 k (by omega) hk2⟩

/-- The search forward finds the first index that fits, from the start on. -/
theorem findNext_eq_some_iff {s : TokenStream} {p : Kind → Bool} {start j : Nat} :
    s.findNext p start = some j ↔
      start ≤ j ∧ s.has j p = true ∧ ∀ k, start ≤ k → k < j → s.has k p = false := by
  rw [findNext, findFrom_eq_some_iff]
  constructor
  · rintro ⟨h1, _, h3, h4⟩
    exact ⟨h1, h3, h4⟩
  · rintro ⟨h1, h3, h4⟩
    have := lt_size_of_has h3
    exact ⟨h1, by omega, h3, h4⟩

/-- The search backward finds the last index that fits, below the end. -/
theorem findBelow_eq_some_iff {s : TokenStream} {p : Kind → Bool} {n j : Nat} :
    s.findBelow p n = some j ↔
      j < n ∧ s.has j p = true ∧ ∀ k, j < k → k < n → s.has k p = false := by
  induction n with
  | zero => simp [findBelow]
  | succ n ih =>
    rw [findBelow]
    split
    · next h =>
      constructor
      · rintro ⟨rfl⟩
        exact ⟨by omega, h, fun k h1 h2 => by omega⟩
      · rintro ⟨h1, _, h3⟩
        by_cases hij : n = j
        · rw [hij]
        · have := h3 n (by omega) (by omega)
          simp [h] at this
    · next h =>
      rw [ih]
      constructor
      · rintro ⟨h1, h2, h3⟩
        refine ⟨by omega, h2, fun k hk1 hk2 => ?_⟩
        by_cases hnk : n = k
        · subst hnk; simpa using h
        · exact h3 k hk1 (by omega)
      · rintro ⟨h1, h2, h3⟩
        have hij : n ≠ j := by
          rintro rfl
          exact h h2
        exact ⟨by omega, h2, fun k hk1 hk2 => h3 k hk1 (by omega)⟩

/-- What is found before an index lies before it, and in the stream. -/
theorem lt_of_findBefore {s : TokenStream} {p : Kind → Bool} {i j : Nat}
    (h : s.findBefore p i = some j) : j < i ∧ j < s.size := by
  have := (findBelow_eq_some_iff.1 h).1
  omega

/-! ## Pairs and texts -/

/-- The other end of the pair of the delimiter at an index. -/
def partner? (s : TokenStream) (i : Nat) : Option Nat := s.partners[i]?.join

/-- Partners come from the pairs that the delimiters of the stream make. -/
theorem mem_pairs_of_partner? {s : TokenStream} {i j : Nat} (h : s.partner? i = some j) :
    (i, j) ∈ Pairing.pairs (s.tokens.toList.map Token.kind) ∨
      (j, i) ∈ Pairing.pairs (s.tokens.toList.map Token.kind) := by
  apply Pairing.mem_pairs_of_partners
  rw [← s.partners_eq]
  simpa [partner?, Option.join_eq_some_iff] using h

/-- The partner of an opener comes after it. -/
theorem lt_of_partner? {s : TokenStream} {i j : Nat} {d : Delimiter}
    (hi : s.isAt i (.opens d) = true) (h : s.partner? i = some j) : i < j := by
  rcases mem_pairs_of_partner? h with h | h
  · exact (Pairing.lt_of_mem_pairs h).1
  · obtain ⟨-, e, -, hc⟩ := Pairing.lt_of_mem_pairs h
    simp only [isAt, kind?, token?, beq_iff_eq] at hi
    rw [List.getElem?_map, Array.getElem?_toList, hi] at hc
    simp at hc

/-- The tags inside the doc comment that opens at an index. -/
def docTags (s : TokenStream) (opener : Nat) : List Nat :=
  match s.partner? opener with
  | some closer => (List.range' opener (closer - opener)).filter (s.isAt · .docTag)
  | none => []

/-- The text from one index to another, both included. -/
def textBetween (s : TokenStream) (first last : Nat) : Text :=
  (s.tokens.toList.take (last + 1)).drop first |>.flatMap Token.content

/-- The text from one index to another.  In a stream without tokens the first index may not lie at
the start: there is no token to start with. -/
def textBetween? (s : TokenStream) (first last : Nat) : Except OutOfRange Text :=
  if s.size = 0 ∧ first = 0 then .error (.index first) else .ok (s.textBetween first last)

end TokenStream

end PhpLint

import Mathlib.Algebra.Group.Nat.Defs
import Mathlib.Data.List.Basic
import PhpLint.Proofs.Lexing.Search
import PhpLint.Proofs.Scopes.OwnBody

/-!
# Queries that check every access

The queries of a stream are total: an index outside finds nothing.  A program that takes a token by its
index has no such answer.  It stops, and so it does when it takes a piece that ends too late, a
difference below zero, or a sum that no machine word holds.

This file and those beside it read the program once more with all of these checked: whatever is taken
by its index goes through `look`, a piece through `below`, sums and differences through `plus` and
`minus`.  Each reading is shown to have a value, which is the answer of the query
(`nextSignificant_eq`, `bodyCloser?_eq` and so on).  An index has to lie in the stream where the program
takes the token there before it asks anything else, and nowhere else.

A stream **fits** when its numbers are at most `2 ^ 53` and its tokens and texts are fewer than the
`2 ^ 63` that memory holds at most.  That bounds every sum.
-/

namespace PhpLint

/-- Why the program stops. -/
inductive Breach
  /-- A token is taken at an index outside of the stream. -/
  | index (e : OutOfRange)
  /-- A piece is taken that ends behind the end. -/
  | piece (stop : Nat)
  /-- A difference is below zero. -/
  | difference (i n : Nat)
  /-- A sum is too large for a machine word. -/
  | sum (i n : Nat)
  /-- A text is cut inside of a character. -/
  | cut (offset : Nat)
  /-- A loop does not get on. -/
  | stuck
  deriving DecidableEq, Repr

/-- A value, if every access on the way to it succeeds. -/
abbrev Checked (α : Type) := Except Breach α

/-- The numbers of the tokens are at most `2 ^ 53`, and memory holds the stream. -/
structure TokenStream.Fits (s : TokenStream) : Prop where
  size : s.size < 2 ^ 63
  line : ∀ t ∈ s.tokens, t.line ≤ 2 ^ 53
  column : ∀ t ∈ s.tokens, t.column ≤ 2 ^ 53
  content : ∀ t ∈ s.tokens, Text.utf8Length t.content < 2 ^ 63

namespace Checked

variable {α β γ : Type}

/-! ## Accesses -/

/-- What is asked of the token at an index, which is taken. -/
def look (s : TokenStream) (i : Nat) (answer : TokenStream → Nat → α) : Checked α :=
  (s.ask i answer).mapError .index

/-- A sum, which has to fit into a machine word. -/
def plus (i n : Nat) : Checked Nat := if i + n < 2 ^ 64 then .ok (i + n) else .error (.sum i n)

/-- A difference, which has to be a number. -/
def minus (i n : Nat) : Checked Nat := if n ≤ i then .ok (i - n) else .error (.difference i n)

/-- What follows from an answer, if there is one. -/
def andThen (x : Checked (Option α)) (f : α → Checked (Option β)) : Checked (Option β) := do
  match ← x with
  | some a => f a
  | none => return none

/-- A test of an index, if there is one. -/
def anyAt (x : Checked (Option Nat)) (test : Nat → Checked Bool) : Checked Bool := do
  match ← x with
  | some i => test i
  | none => return false

/-- An index, if there is one and a test of it holds. -/
def keepIf (x : Checked (Option Nat)) (test : Nat → Checked Bool) : Checked (Option Nat) :=
  andThen x fun i => do if ← test i then return some i else return none

/-- What is gathered along a list of indices. -/
def gather (f : Nat → Checked (List α)) : List Nat → Checked (List α)
  | [] => return []
  | i :: is => return (← f i) ++ (← gather f is)

/-- What is found along a list of indices. -/
def gatherSome (f : Nat → Checked (Option α)) : List Nat → Checked (List α) :=
  gather fun i => Option.toList <$> f i

/-- The members of a list of indices for which a test holds. -/
def keep (test : Nat → Checked Bool) : List Nat → Checked (List Nat) :=
  gather fun i => do return if ← test i then [i] else []

@[simp] theorem ok_bind (a : α) (f : α → Checked β) : (Except.ok a >>= f) = f a := rfl

@[simp] theorem pure_eq (a : α) : (pure a : Checked α) = .ok a := rfl

theorem look_eq {s : TokenStream} {i : Nat} (h : i < s.size) (answer : TokenStream → Nat → α) :
    look s i answer = .ok (answer s i) := by
  rw [look, TokenStream.ask, if_pos h]
  rfl

/-- A sum that fits into a machine word is the sum. -/
theorem plus_eq {i n : Nat} (h : i + n < 2 ^ 64) : plus i n = .ok (i + n) := if_pos h

/-- A difference that is a number is the difference. -/
theorem minus_eq {i n : Nat} (h : n ≤ i) : minus i n = .ok (i - n) := if_pos h

/-- What follows from an answer has a value where it has one for the answer that there is. -/
theorem andThen_eq {x : Checked (Option α)} {f : α → Checked (Option β)} {o : Option α}
    {g : α → Option β} (hx : x = .ok o) (hf : ∀ a, o = some a → f a = .ok (g a)) :
    andThen x f = .ok (o.bind g) := by
  rw [andThen, hx]
  cases o with
  | none => rfl
  | some a => exact hf a rfl

/-- A test of an answer has a value where it has one for the answer that there is. -/
theorem anyAt_eq {x : Checked (Option Nat)} {test : Nat → Checked Bool} {o : Option Nat}
    {p : Nat → Bool} (hx : x = .ok o) (htest : ∀ i, o = some i → test i = .ok (p i)) :
    anyAt x test = .ok (o.any p) := by
  rw [anyAt, hx]
  cases o with
  | none => rfl
  | some i => exact htest i rfl

/-- Keeping an answer has a value where the test of it has one. -/
theorem keepIf_eq {x : Checked (Option Nat)} {test : Nat → Checked Bool} {o : Option Nat}
    {p : Nat → Bool} (hx : x = .ok o) (htest : ∀ i, o = some i → test i = .ok (p i)) :
    keepIf x test = .ok (o.filter p) := by
  have hfilter : o.filter p = o.bind fun i => if p i then some i else none := by
    cases o <;> rfl
  rw [hfilter]
  refine andThen_eq hx fun i hi => ?_
  rw [htest i hi, ok_bind]
  exact (apply_ite Except.ok _ (some i) none).symm

/-- The second of two tests is made when the first one holds. -/
theorem and_eq {x y : Checked Bool} {a b : Bool} (hx : x = .ok a) (hy : a = true → y = .ok b) :
    (x <&&> y) = .ok (a && b) := by
  rw [hx]
  cases a with
  | false => rfl
  | true => exact hy rfl

/-- The second of two tests is made when the first one fails. -/
theorem or_eq {x y : Checked Bool} {a b : Bool} (hx : x = .ok a) (hy : a = false → y = .ok b) :
    (x <||> y) = .ok (a || b) := by
  rw [hx]
  cases a with
  | false => exact hy rfl
  | true => rfl

theorem map_eq {x : Checked α} {a : α} (hx : x = .ok a) (f : α → β) : f <$> x = .ok (f a) := by
  rw [hx]
  rfl

/-- What is gathered along a list has a value where each member has one. -/
theorem gather_eq {f : Nat → Checked (List α)} {g : Nat → List α} {l : List Nat}
    (h : ∀ i ∈ l, f i = .ok (g i)) : gather f l = .ok (l.flatMap g) := by
  induction l with
  | nil => rfl
  | cons i is ih =>
    have hfirst := h i List.mem_cons_self
    have hrest := ih fun j hj => h j (List.mem_cons_of_mem i hj)
    rw [gather, hfirst, hrest]
    rfl

/-- What is found along a list has a value where each member has one. -/
theorem gatherSome_eq {f : Nat → Checked (Option α)} {g : Nat → Option α} {l : List Nat}
    (h : ∀ i ∈ l, f i = .ok (g i)) : gatherSome f l = .ok (l.filterMap g) := by
  rw [List.filterMap_eq_flatMap_toList]
  exact gather_eq fun i hi => map_eq (h i hi) Option.toList

/-- Keeping the members of a list has a value where the test has one for each of them. -/
theorem keep_eq {test : Nat → Checked Bool} {p : Nat → Bool} {l : List Nat}
    (h : ∀ i ∈ l, test i = .ok (p i)) : keep test l = .ok (l.filter p) := by
  have hgather : keep test l = .ok (l.flatMap fun i => if p i then [i] else []) := by
    refine gather_eq fun i hi => ?_
    rw [h i hi]
    rfl
  rw [hgather]
  refine congrArg Except.ok ?_
  clear h hgather
  induction l with
  | nil => rfl
  | cons i is ih =>
    rw [List.flatMap_cons, ih, List.filter_cons]
    cases p i <;> rfl

/-! ## Searches -/

variable {s : TokenStream} {p : Kind → Bool} {i j : Nat}

/-- The search among the `n` tokens from an index on. -/
def findFrom (s : TokenStream) (p : Kind → Bool) : (n i : Nat) → Checked (Option Nat)
  | 0, _ => return none
  | n + 1, i => do
    if ← look s i (·.has · p) then return some i
    findFrom s p n (i + 1)

/-- The first index at or after `start` whose kind fits. -/
def findNext (s : TokenStream) (p : Kind → Bool) (start : Nat) : Checked (Option Nat) :=
  findFrom s p (s.size - start) start

/-- The first index at or after `start` and before `stop` whose kind fits. -/
def findNextBefore (s : TokenStream) (p : Kind → Bool) (start stop : Nat) :
    Checked (Option Nat) := do
  return (← findNext s p start).filter (· < stop)

/-- The last of the first `stop` tokens whose kind fits: they are taken as one piece. -/
def below (s : TokenStream) (p : Kind → Bool) (stop : Nat) : Checked (Option Nat) :=
  if stop ≤ s.size then .ok (s.findBelow p stop) else .error (.piece stop)

/-- The last index at or before `last` whose kind fits; the sum stops at the largest word. -/
def findPrevious (s : TokenStream) (p : Kind → Bool) (last : Nat) : Checked (Option Nat) :=
  below s p (min (min (last + 1) (2 ^ 64 - 1)) s.size)

/-- The last index before `i` whose kind fits; before the first one there is none. -/
def findBefore (s : TokenStream) (p : Kind → Bool) (i : Nat) : Checked (Option Nat) :=
  if i = 0 then return none else findPrevious s p (i - 1)

/-- The next index after `i` that carries code. -/
def nextSignificant (s : TokenStream) (i : Nat) : Checked (Option Nat) := do
  findNext s Kind.isSignificant (← plus i 1)

/-- The last index before `i` that carries code. -/
def previousSignificant (s : TokenStream) (i : Nat) : Checked (Option Nat) :=
  findBefore s Kind.isSignificant i

/-- A search looks at tokens of the stream alone, as long as it does not go behind the end. -/
theorem findFrom_eq {n : Nat} (h : n = 0 ∨ i + n ≤ s.size) :
    findFrom s p n i = .ok (s.findFrom p n i) := by
  induction n generalizing i with
  | zero => rfl
  | succ n ih =>
    rw [findFrom, look_eq (by omega), ok_bind, TokenStream.findFrom]
    split
    · rfl
    · exact ih (by omega)

/-- The search forward has an answer from any index, also from one outside. -/
theorem findNext_eq (s : TokenStream) (p : Kind → Bool) (i : Nat) :
    findNext s p i = .ok (s.findNext p i) :=
  findFrom_eq (by omega)

/-- The search forward up to an end has an answer from any index. -/
theorem findNextBefore_eq (s : TokenStream) (p : Kind → Bool) (i j : Nat) :
    findNextBefore s p i j = .ok (s.findNextBefore p i j) := by
  rw [findNextBefore, findNext_eq]
  rfl

/-- The search backward has an answer from any index: the piece that it takes ends with the stream. -/
theorem findPrevious_eq (hs : s.Fits) (p : Kind → Bool) (i : Nat) :
    findPrevious s p i = .ok (s.findPrevious p i) := by
  have hsize := hs.size
  have hstop : min (min (i + 1) (2 ^ 64 - 1)) s.size = min (i + 1) s.size := by omega
  rw [findPrevious, hstop, below, if_pos (Nat.min_le_right _ _)]
  rfl

/-- The search before an index has an answer, also before the first one. -/
theorem findBefore_eq (hs : s.Fits) (p : Kind → Bool) (i : Nat) :
    findBefore s p i = .ok (s.findBefore p i) := by
  unfold findBefore
  split
  · next h =>
    subst h
    simp [TokenStream.findBefore, TokenStream.findBelow]
  · next h =>
    have hpred : i - 1 + 1 = i := Nat.succ_pred_eq_of_ne_zero h
    rw [findPrevious_eq hs, TokenStream.findPrevious, hpred]
    rfl

/-- The next code is found from every index that is far from the largest machine word. -/
theorem nextSignificant_eq (hi : i < 2 ^ 63) :
    nextSignificant s i = .ok (s.nextSignificant i) := by
  rw [nextSignificant, plus_eq (by omega), ok_bind, findNext_eq]
  rfl

/-- The last code before an index is found from every index. -/
theorem previousSignificant_eq (hs : s.Fits) (i : Nat) :
    previousSignificant s i = .ok (s.previousSignificant i) :=
  findBefore_eq hs _ i

theorem lt_size_of_isAt {k : Kind} (h : s.isAt i k = true) : i < s.size :=
  TokenStream.lt_size_of_has ((TokenStream.has_of_isAt h (· == k)).trans (beq_self_eq_true k))

theorem lt_size_of_nextSignificant (h : s.nextSignificant i = some j) : j < s.size :=
  TokenStream.lt_size_of_has (TokenStream.has_of_findNext h)

theorem lt_size_of_previousSignificant (h : s.previousSignificant i = some j) : j < s.size :=
  TokenStream.lt_size_of_has (TokenStream.has_of_findBefore h)

theorem lt_size_of_partner? (h : s.partner? i = some j) : j < s.size :=
  (TokenStream.lt_size_of_partner? h).2

/-- Lines are bounded at every index, those outside of the stream included. -/
theorem line_le (hs : s.Fits) (i : Nat) : s.line i ≤ 2 ^ 53 := by
  rw [TokenStream.line]
  cases htoken : s.token? i with
  | none => exact Nat.zero_le _
  | some t => exact hs.line t (Array.mem_of_getElem? htoken)

/-! ## Tags and declarations -/

/-- The tags inside the doc comment that opens at an index. -/
def docTags (s : TokenStream) (opener : Nat) : Checked (List Nat) :=
  match s.partner? opener with
  | some closer => keep (look s · (·.isAt · .docTag)) (List.range' opener (closer - opener))
  | none => return []

/-- The tags of a comment are found without an access out of range. -/
theorem docTags_eq (s : TokenStream) (i : Nat) : docTags s i = .ok (s.docTags i) := by
  unfold docTags TokenStream.docTags
  cases hpartner : s.partner? i with
  | none => rfl
  | some closer =>
    have hcloser := lt_size_of_partner? hpartner
    refine keep_eq fun k hk => look_eq ?_ _
    rw [List.mem_range'_1] at hk
    omega

/-- The token after a keyword that may be a reference sign, or else the one after that. -/
def behindReference (s : TokenStream) (next : Nat) : Checked (Option Nat) := do
  if (← look s next TokenStream.content) = ['&'] then nextSignificant s next else return some next

/-- The name that the keyword at an index declares. -/
def declaredName? (s : TokenStream) (i : Nat) : Checked (Option Text) :=
  andThen (nextSignificant s i) fun next => andThen (behindReference s next) fun name => do
    if ← look s name (·.isAt · .identifier) then
      return some (← look s name TokenStream.content)
    return none

/-- The declared name is found from every index that is far from the largest machine word. -/
theorem declaredName?_eq (hs : s.Fits) (hi : i < 2 ^ 63) :
    declaredName? s i = .ok (s.declaredName? i) := by
  have hsize := hs.size
  have hname {name : Nat} (h : name < s.size) :
      (do
        if ← look s name (·.isAt · .identifier) then
          return some (← look s name TokenStream.content)
        return none : Checked (Option Text)) =
      .ok (if s.isAt name .identifier then some (s.content name) else none) := by
    rw [look_eq h, ok_bind, look_eq h]
    split <;> rfl
  refine andThen_eq (nextSignificant_eq hi) fun next hnext => ?_
  have hlt := lt_size_of_nextSignificant hnext
  rw [behindReference, look_eq hlt, ok_bind]
  split
  · refine andThen_eq (nextSignificant_eq (by omega)) fun name hsome => ?_
    exact hname (lt_size_of_nextSignificant hsome)
  · exact andThen_eq rfl fun name hsome => hname (Option.some.inj hsome ▸ hlt)

/-- The keyword at the index starts a closure. -/
def isClosure (s : TokenStream) (i : Nat) : Checked Bool :=
  look s i (·.isAt · (.keyword .kwFunction)) <&&> (Option.isNone <$> declaredName? s i)

/-- The keyword at the index starts an anonymous class. -/
def isAnonymousClass (s : TokenStream) (i : Nat) : Checked Bool :=
  look s i (·.isAt · (.keyword .kwClass)) <&&>
    anyAt (previousSignificant s i) (look s · (·.isAt · (.keyword .kwNew)))

/-- The keyword at the index declares a type with a name. -/
def isTypeDeclaration (s : TokenStream) (i : Nat) : Checked Bool :=
  look s i (·.has · Kind.isTypeKeyword) <&&>
    ((!·) <$> anyAt (previousSignificant s i)
      (look s · fun s p => s.isAt p .doubleColon || s.isAt p (.keyword .kwNew))) <&&>
    (Option.isSome <$> declaredName? s i)

/-- A token of the stream is known to start a closure or not. -/
theorem isClosure_eq (hs : s.Fits) (hi : i < s.size) : isClosure s i = .ok (s.isClosure i) := by
  have hsize := hs.size
  exact and_eq (look_eq hi _) fun _ => map_eq (declaredName?_eq hs (by omega)) _

/-- A token of the stream is known to start an anonymous class or not. -/
theorem isAnonymousClass_eq (hs : s.Fits) (hi : i < s.size) :
    isAnonymousClass s i = .ok (s.isAnonymousClass i) := by
  refine and_eq (look_eq hi _) fun _ => anyAt_eq (previousSignificant_eq hs i) fun p hp => ?_
  exact look_eq (lt_size_of_previousSignificant hp) _

/-- A token of the stream is known to declare a type or not. -/
theorem isTypeDeclaration_eq (hs : s.Fits) (hi : i < s.size) :
    isTypeDeclaration s i = .ok (s.isTypeDeclaration i) := by
  have hsize := hs.size
  rw [TokenStream.isTypeDeclaration, Bool.and_assoc]
  refine and_eq (look_eq hi _) fun _ => and_eq (map_eq ?_ _) fun _ => ?_
  · exact anyAt_eq (previousSignificant_eq hs i) fun p hp =>
      look_eq (lt_size_of_previousSignificant hp) _
  · exact map_eq (declaredName?_eq hs (by omega)) _

/-! ## Bodies -/

/-- Where the search for the body of the declaration at an index starts. -/
def bodySearchStart? (s : TokenStream) (i : Nat) : Checked (Option Nat) := do
  let start ← plus i 1
  if ← look s i (·.has · TokenStream.isFunctionKeyword) then
    andThen (findNext s (· == .opens .round) start) fun opener =>
      andThen (pure (s.partner? opener)) fun closer => some <$> plus closer 1
  else return some start

/-- The brace that opens the body of the declaration at an index. -/
def bodyOpener? (s : TokenStream) (i : Nat) : Checked (Option Nat) :=
  andThen (bodySearchStart? s i) fun start =>
    andThen (findNext s (fun k => k == .opens .curly || k == .semicolon) start) fun found => do
      if ← look s found (·.isAt · (.opens .curly)) then return some found
      return none

/-- The brace that closes the body of the declaration at an index. -/
def bodyCloser? (s : TokenStream) (i : Nat) : Checked (Option Nat) :=
  andThen (bodyOpener? s i) fun opener => return s.partner? opener

/-- Both braces of the body of the declaration at an index; the opener is searched twice. -/
def body? (s : TokenStream) (i : Nat) : Checked (Option (Nat × Nat)) :=
  andThen (bodyOpener? s i) fun opener => andThen (bodyCloser? s i) fun closer =>
    return some (opener, closer)

/-- What the search forward finds is a token of the stream. -/
theorem lt_size_of_findNext (h : s.findNext p i = some j) : j < s.size :=
  TokenStream.lt_size_of_has (TokenStream.has_of_findNext h)

/-- Where the search for a body starts is known without a sum too large. -/
theorem bodySearchStart?_eq (hs : s.Fits) (hi : i < s.size) :
    bodySearchStart? s i = .ok (s.bodySearchStart? i) := by
  have hsize := hs.size
  rw [bodySearchStart?, plus_eq (by omega), ok_bind, look_eq hi, ok_bind,
    TokenStream.bodySearchStart?]
  split
  · refine andThen_eq (findNext_eq s _ _) fun opener _ => andThen_eq rfl fun closer hcloser => ?_
    have hlt := lt_size_of_partner? hcloser
    exact map_eq (plus_eq (by omega)) _
  · rfl

/-- The brace that opens a body is found without an access out of range. -/
theorem bodyOpener?_eq (hs : s.Fits) (hi : i < s.size) :
    bodyOpener? s i = .ok (s.bodyOpener? i) := by
  refine andThen_eq (bodySearchStart?_eq hs hi) fun start _ => ?_
  refine andThen_eq (findNext_eq s _ _) fun found hfound => ?_
  rw [look_eq (lt_size_of_findNext hfound), ok_bind]
  split <;> rfl

/-- The brace that closes a body is found without an access out of range. -/
theorem bodyCloser?_eq (hs : s.Fits) (hi : i < s.size) :
    bodyCloser? s i = .ok (s.bodyCloser? i) :=
  andThen_eq (bodyOpener?_eq hs hi) fun _ _ => rfl

/-- Both braces of a body are found without an access out of range. -/
theorem body?_eq (hs : s.Fits) (hi : i < s.size) : body? s i = .ok (s.body? i) := by
  refine andThen_eq (bodyOpener?_eq hs hi) fun opener hopener => ?_
  have hcloser : bodyCloser? s i = .ok (s.partner? opener) := by
    rw [bodyCloser?_eq hs hi, TokenStream.bodyCloser?, hopener]
    rfl
  exact andThen_eq hcloser fun _ _ => rfl

/-! ## Texts -/

/-- The text from one index to another, both included, taken as one piece. -/
def textBetween (s : TokenStream) (first last : Nat) : Checked Text :=
  let last := min last (s.size - 1)
  if last < first then return []
  else if last < s.size then return s.textBetween first last
  else .error (.piece (last + 1))

/-- The text up to a token of the stream is a piece of it. -/
theorem textBetween_eq (hj : j < s.size) : textBetween s i j = .ok (s.textBetween i j) := by
  have hlast : min j (s.size - 1) = j := by omega
  simp only [textBetween, hlast, hj, if_true]
  split
  · next hlt =>
    have hnil : ((s.tokens.toList.take (j + 1)).drop i) = [] := by
      rw [List.drop_eq_nil_iff, List.length_take]
      omega
    rw [TokenStream.textBetween, hnil]
    rfl
  · rfl

end Checked

end PhpLint

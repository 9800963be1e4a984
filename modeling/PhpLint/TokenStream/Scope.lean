import PhpLint.TokenStream

/-!
# Declarations and their bodies

What a `function`, `class`, `interface` or `trait` keyword introduces: the name it declares, whether
it declares a name at all, and the braces around its body.

A **closure** is a function keyword without a name, an **anonymous class** a class keyword after
`new`.  The search for a body starts after the keyword, for a function after its parameter list, and
a semicolon in front of the brace means that there is none.  `lt_of_bodyCloser?` says that a body ends
after the keyword it belongs to.
-/

namespace PhpLint.TokenStream

/-- A function keyword, with its own name or the short one. -/
def isFunctionKeyword (k : Kind) : Bool := k == .keyword .kwFunction || k == .keyword .kwFn

/-- The name that the keyword at an index declares, a reference sign before it not counted. -/
def declaredName? (s : TokenStream) (i : Nat) : Option Text := do
  let next ← s.nextSignificant i
  let name ← if s.content next = ['&'] then s.nextSignificant next else some next
  if s.isAt name .identifier then some (s.content name) else none

/-- The keyword at the index starts a closure. -/
def isClosure (s : TokenStream) (i : Nat) : Bool :=
  s.isAt i (.keyword .kwFunction) && (s.declaredName? i).isNone

/-- The keyword at the index starts an anonymous class. -/
def isAnonymousClass (s : TokenStream) (i : Nat) : Bool :=
  s.isAt i (.keyword .kwClass) && (s.previousSignificant i).any (s.isAt · (.keyword .kwNew))

/-- The keyword at the index declares a type with a name. -/
def isTypeDeclaration (s : TokenStream) (i : Nat) : Bool :=
  s.has i Kind.isTypeKeyword &&
    !(s.previousSignificant i).any (fun p => s.isAt p .doubleColon || s.isAt p (.keyword .kwNew)) &&
    (s.declaredName? i).isSome

/-- Where the search for the body of the declaration at an index starts. -/
def bodySearchStart? (s : TokenStream) (i : Nat) : Option Nat :=
  if s.has i isFunctionKeyword then do
    let opener ← s.findNext (· == .opens .round) (i + 1)
    let closer ← s.partner? opener
    some (closer + 1)
  else some (i + 1)

/-- The brace that opens the body of the declaration at an index. -/
def bodyOpener? (s : TokenStream) (i : Nat) : Option Nat := do
  let start ← s.bodySearchStart? i
  let found ← s.findNext (fun k => k == .opens .curly || k == .semicolon) start
  if s.isAt found (.opens .curly) then some found else none

/-- The brace that closes the body of the declaration at an index. -/
def bodyCloser? (s : TokenStream) (i : Nat) : Option Nat :=
  (s.bodyOpener? i).bind s.partner?

/-- Both braces of the body of the declaration at an index. -/
def body? (s : TokenStream) (i : Nat) : Option (Nat × Nat) := do
  let opener ← s.bodyOpener? i
  let closer ← s.partner? opener
  some (opener, closer)

/-- The opener of a body is a brace behind its keyword. -/
theorem lt_of_bodyOpener? {s : TokenStream} {i j : Nat} (h : s.bodyOpener? i = some j) :
    i < j ∧ s.isAt j (.opens .curly) = true := by
  simp only [bodyOpener?, Option.bind_eq_bind, Option.bind_eq_some_iff] at h
  obtain ⟨start, h1, found, h2, h3⟩ := h
  have hle : i < start := by
    simp only [bodySearchStart?] at h1
    split at h1
    · simp only [Option.bind_eq_bind, Option.bind_eq_some_iff] at h1
      obtain ⟨opener, h4, closer, h5, h6⟩ := h1
      obtain ⟨h7, h8, -⟩ := findNext_eq_some_iff.1 h4
      have hat : s.isAt opener (.opens .round) = true := by
        simpa [has, isAt, Option.any_eq_true] using h8
      have := lt_of_partner? hat h5
      cases Option.some.inj h6
      omega
    · cases Option.some.inj h1
      omega
  have := (findNext_eq_some_iff.1 h2).1
  split at h3
  · next hc =>
    cases Option.some.inj h3
    exact ⟨by omega, hc⟩
  · simp at h3

/-- A body ends behind its keyword. -/
theorem lt_of_bodyCloser? {s : TokenStream} {i j : Nat} (h : s.bodyCloser? i = some j) : i < j := by
  obtain ⟨opener, h1, h2⟩ := Option.bind_eq_some_iff.1 h
  obtain ⟨h3, h4⟩ := lt_of_bodyOpener? h1
  exact Nat.lt_trans h3 (lt_of_partner? h4 h2)

/-- An index lies inside a body. -/
def inside (i : Nat) (body : Nat × Nat) : Bool := body.1 < i && i < body.2

end PhpLint.TokenStream

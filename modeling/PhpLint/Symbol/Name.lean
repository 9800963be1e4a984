import PhpLint.TokenStream.Scope
import PhpLint.Unicode.Alphanumeric

/-!
# Names in a token stream

A possibly qualified name is read from tokens that stand side by side: words and separators.  After
a separator any word will do, so a namespace segment may be spelled like a keyword.

`readName?` answers the name and the index just past it; `lt_of_readName?` says that this index is
larger than the one where the reading started.
-/

namespace PhpLint

/-- The letters that may stand in a segment spelled like a keyword. -/
def isSegmentChar (c : Char) : Bool := Unicode.isAlphanumeric c || c == '_'

/-- The part that a token adds to the name read so far, unless the name ends before it. -/
def namePart? (name : Text) (t : Token) : Option Text :=
  match t.kind with
  | .backslash => some ['\\']
  | .identifier => some t.content
  | _ => if name.getLast? = some '\\' && t.content.all isSegmentChar then some t.content else none

namespace TokenStream

/-- The name that goes on over at most `n` tokens from index `i`, and the index past it. -/
def nameFrom (s : TokenStream) (name : Text) : (n i : Nat) → Text × Nat
  | 0, i => (name, i)
  | n + 1, i =>
    match (s.token? i).bind (namePart? name) with
    | some part => s.nameFrom (name ++ part) n (i + 1)
    | none => (name, i)

/-- The name that starts at an index, and the index past it. -/
def readName? (s : TokenStream) (start : Nat) : Option (Text × Nat) :=
  let (name, stop) := s.nameFrom [] (s.size - start) start
  if name.isEmpty then none else some (name, stop)

/-- Reading a name does not lead back. -/
theorem le_nameFrom (s : TokenStream) (name : Text) (n i : Nat) : i ≤ (s.nameFrom name n i).2 := by
  induction n generalizing name i with
  | zero => exact Nat.le_refl _
  | succ n ih =>
    rw [nameFrom]
    split
    · exact Nat.le_of_succ_le (ih _ _)
    · exact Nat.le_refl _

/-- A name that is read ends behind where it starts. -/
theorem lt_of_readName? {s : TokenStream} {start stop : Nat} {name : Text}
    (h : s.readName? start = some (name, stop)) : start < stop := by
  simp only [readName?] at h
  split at h
  · simp at h
  · next hn =>
    obtain ⟨rfl, rfl⟩ := Prod.mk.inj (Option.some.inj h)
    cases hs : s.size - start with
    | zero => simp [hs, nameFrom] at hn
    | succ n =>
      rw [hs] at hn
      rw [nameFrom] at hn ⊢
      split
      · exact s.le_nameFrom _ n (start + 1)
      · next he => simp [he] at hn

/-- The next index with code is a later one, and lies in the stream. -/
theorem lt_of_nextSignificant {s : TokenStream} {i j : Nat} (h : s.nextSignificant i = some j) :
    i < j ∧ j < s.size := by
  obtain ⟨h1, h2, -⟩ := findNext_eq_some_iff.1 h
  exact ⟨h1, lt_size_of_has h2⟩

end TokenStream

/-- The name without the separators in front. -/
def stripLeading (name : Text) : Text := Text.trimStartOf (· == '\\') name

/-- The part of a name after its last separator. -/
def lastSegment (name : Text) : Text := ((Text.splitOn '\\' name).getLast?).getD []

/-- A name and one in front of it that it belongs to. -/
def qualifyWith (namespaceName name : Text) : Text := namespaceName ++ '\\' :: name

end PhpLint

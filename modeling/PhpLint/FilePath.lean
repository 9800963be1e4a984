import PhpLint.Text

/-!
# File paths

A path is its text, kept as written.  What it means is its list of **components**: the root, the
current directory when a relative path starts with it, the parent directory, and names.  Repeated
slashes, slashes at the end and single dots further in mean nothing, so two texts may name one path.

Cutting a base off a path keeps the text of what remains, less such parts at its two ends.  Paths
are ordered component by component, not character by character: `a/b` comes before `a.b`.
-/

namespace PhpLint

/-- A path as it is written. -/
structure FilePath where
  text : Text
  deriving DecidableEq, Repr

/-- One component of a path. -/
inductive Component
  | root
  | current
  | parent
  | name (text : Text)
  deriving DecidableEq, Repr

namespace Component

/-- What a piece between slashes means inside of a path. -/
def ofPiece? (piece : Text) : Option Component :=
  if piece = [] ∨ piece = ['.'] then none
  else if piece = ['.', '.'] then some .parent
  else some (.name piece)

/-- The place of a component's sort in the order. -/
def rank : Component → Nat
  | root => 0
  | current => 1
  | parent => 2
  | name _ => 3

/-- The text that orders components of one sort. -/
def key : Component → Text
  | name t => t
  | _ => []

/-- The order of components: by sort, and names by their characters. -/
def order (a b : Component) : Ordering :=
  (compare a.rank b.rank).then (List.compareLex compare a.key b.key)

end Component

namespace FilePath

/-- The path of a string. -/
def ofString (s : String) : FilePath := ⟨s.toList⟩

/-- The path as a string. -/
def toString (p : FilePath) : String := String.ofList p.text

/-- The path starts at the root. -/
def isAbsolute (p : FilePath) : Bool := p.text.head? == some '/'

/-- The component that a text starts with, when it is the root or the current directory, and the
text after it. -/
def startOf : Text → Option Component × Text
  | '/' :: rest => (some .root, rest)
  | ['.'] => (some .current, [])
  | '.' :: '/' :: rest => (some .current, '/' :: rest)
  | t => (none, t)

/-- The text before the first slash. -/
def firstPiece (t : Text) : Text := t.takeWhile (· != '/')

/-- The text after the first slash. -/
def afterPiece (t : Text) : Text := t.drop ((firstPiece t).length + 1)

/-- Reading a piece of a path leaves less of it. -/
theorem length_afterPiece_lt {t : Text} (h : t ≠ []) : (afterPiece t).length < t.length := by
  have := List.length_pos_iff.2 h
  simp only [afterPiece, List.length_drop]
  omega

/-- The components in a text that follows the start of a path, each with the text after it. -/
def bodySteps (t : Text) : List (Component × Text) :=
  if _h : t = [] then []
  else
    match Component.ofPiece? (firstPiece t) with
    | some component => (component, afterPiece t) :: bodySteps (afterPiece t)
    | none => bodySteps (afterPiece t)
termination_by t.length
decreasing_by all_goals exact length_afterPiece_lt _h

/-- The components of a path, each with the text after it. -/
def steps (p : FilePath) : List (Component × Text) :=
  match startOf p.text with
  | (some component, rest) => (component, rest) :: bodySteps rest
  | (none, rest) => bodySteps rest

/-- What the path means. -/
def components (p : FilePath) : List Component := p.steps.map Prod.fst

/-- A text without meaningless pieces in front. -/
def trimFront : Text → Text
  | '/' :: rest => trimFront rest
  | ['.'] => []
  | '.' :: '/' :: rest => trimFront rest
  | t => t

/-- A text without meaningless pieces at its end, written backwards on both sides. -/
def trimBackward : Text → Text
  | '/' :: rest => trimBackward rest
  | ['.'] => []
  | '.' :: '/' :: rest => trimBackward rest
  | t => t

/-- A text without meaningless pieces at its end. -/
def trimEnd (t : Text) : Text := (trimBackward t.reverse).reverse

/-- The characters of a path's start, and its body. -/
def splitStart (t : Text) : Text × Text :=
  match startOf t with
  | (some _, rest) => (t.take (t.length - rest.length), rest)
  | (none, rest) => ([], rest)

/-- The path below a base, if its components start with those of the base. -/
def below? (p base : FilePath) : Option FilePath :=
  let wanted := base.components
  if p.components.take wanted.length = wanted then
    match p.steps[wanted.length - 1]?, wanted with
    | _, [] =>
      let (start, body) := splitStart p.text
      some ⟨start ++ trimEnd body⟩
    | some (_, rest), _ => some ⟨trimEnd (trimFront rest)⟩
    | none, _ => none
  else none

/-- The path below a base, or the path itself when it lies elsewhere. -/
def relativeTo (p base : FilePath) : FilePath := (p.below? base).getD p

/-- The name of the file that the path leads to. -/
def fileName? (p : FilePath) : Option Text :=
  match p.components.getLast? with
  | some (.name t) => some t
  | _ => none

/-- A file name cut at its last dot: what stands before it, and after it.  A dot in front of a name
does not count. -/
def splitName (name : Text) : Text × Option Text :=
  match Text.cut ['.'] name.reverse with
  | some (_, []) => (name, none)
  | some (after, before) => (before.reverse, some after.reverse)
  | none => (name, none)

/-- The file name less its extension. -/
def stem? (p : FilePath) : Option Text := p.fileName?.map fun name => (splitName name).1

/-- The extension of the file name, its dot not included. -/
def extension? (p : FilePath) : Option Text := p.fileName?.bind fun name => (splitName name).2

/-- The path of what contains the path's last component. -/
def parent? (p : FilePath) : Option FilePath :=
  let (start, body) := splitStart p.text
  let trimmed := trimEnd body
  if trimmed = [] then if start = ['.'] then some ⟨[]⟩ else none
  else
    let front := (trimmed.reverse.dropWhile (· != '/')).drop 1
    some ⟨start ++ trimEnd front.reverse⟩

/-- A path that starts at this one, unless it starts at the root. -/
def join (p q : FilePath) : FilePath :=
  if q.isAbsolute then q
  else if p.text = [] ∨ p.text.getLast? = some '/' then ⟨p.text ++ q.text⟩
  else ⟨p.text ++ '/' :: q.text⟩

/-- Cutting pieces off at the end makes a path no longer. -/
theorem length_trimBackward_le (t : Text) : (trimBackward t).length ≤ t.length := by
  fun_induction trimBackward t <;> simp_all <;> omega

/-- What stands behind the start of a path is a piece of it. -/
theorem length_startOf_le (t : Text) : (startOf t).2.length ≤ t.length := by
  unfold startOf
  split <;> simp

/-- The start of a path and what follows it are all of the path. -/
theorem length_splitStart (t : Text) :
    (splitStart t).1.length + (splitStart t).2.length = t.length := by
  have := length_startOf_le t
  unfold splitStart
  split
  · next rest h =>
    simp only [h] at this
    simp only [List.length_take]
    omega
  · next rest h =>
    have hs : rest = t := by
      unfold startOf at h
      split at h <;> simp_all
    simp [hs]

/-- Cutting separators and pieces off at the end makes a path no longer. -/
theorem length_trimEnd_le (t : Text) : (trimEnd t).length ≤ t.length := by
  simpa [trimEnd] using length_trimBackward_le t.reverse

/-- A parent has a shorter path, so going up from directory to directory ends. -/
theorem length_parent?_lt {p q : FilePath} (h : p.parent? = some q) :
    q.text.length < p.text.length := by
  have h1 := length_splitStart p.text
  have h2 := length_trimEnd_le (splitStart p.text).2
  simp only [parent?] at h
  split at h
  · split at h
    · next hs =>
      cases Option.some.inj h
      rw [hs] at h1
      simp at h1 ⊢
      omega
    · simp at h
  · next hne =>
    cases Option.some.inj h
    have h3 := length_trimEnd_le
      (((trimEnd (splitStart p.text).2).reverse.dropWhile (· != '/')).drop 1).reverse
    have h4 : 0 < (trimEnd (splitStart p.text).2).length := List.length_pos_iff.2 hne
    have h5 := (List.dropWhile_sublist (l := (trimEnd (splitStart p.text).2).reverse)
      (· != '/')).length_le
    simp only [List.length_append, List.length_reverse, List.length_drop] at *
    omega

/-- The path and all that contain it, nearest first. -/
def ancestors (p : FilePath) : List FilePath :=
  match _h : p.parent? with
  | some q => p :: ancestors q
  | none => [p]
termination_by p.text.length
decreasing_by exact length_parent?_lt _h

/-- The order of paths: component by component. -/
def order (p q : FilePath) : Ordering := List.compareLex Component.order p.components q.components

end FilePath

end PhpLint

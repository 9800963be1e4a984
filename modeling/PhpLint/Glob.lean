import PhpLint.Text

/-!
# Globs

A glob is a pattern for whole texts.  A question mark stands for any one character, a class in square
brackets for one of some characters or, after an exclamation mark, for any other one, and a star for
any text, slashes included.  Two stars, which have to be a path component of their own, stand for
any number of components: what follows them goes on at the same place, right after any further
slash, or at the end of the text.

Positions in error messages count the characters of the pattern.
-/

namespace PhpLint

namespace Glob

/-- One or more characters in a class. -/
inductive Member
  | single (c : Char)
  | range (low high : Char)
  deriving DecidableEq, Repr

/-- The member holds a character. -/
def Member.has (c : Char) : Member → Bool
  | single d => c == d
  | range low high => low ≤ c && c ≤ high

/-- A part of a glob. -/
inductive Part
  | literal (c : Char)
  | anyChar
  | oneOf (members : List Member)
  | noneOf (members : List Member)
  | star
  | components
  deriving DecidableEq, Repr

/-- What is wrong with a pattern. -/
inductive Fault
  /-- More than two stars in a row. -/
  | stars
  /-- Two stars that are no component of their own. -/
  | component
  /-- A square bracket that opens no class. -/
  | range
  deriving DecidableEq, Repr

/-- The wording of a fault. -/
def Fault.describe : Fault → String
  | stars => "wildcards are either regular `*` or recursive `**`"
  | component => "recursive wildcards must form a single path component"
  | range => "invalid range pattern"

/-- A pattern that is no glob. -/
structure Error where
  position : Nat
  fault : Fault
  deriving DecidableEq, Repr

/-- The wording of an error. -/
def Error.message (e : Error) : String :=
  s!"Pattern syntax error near position {e.position}: {e.fault.describe}"

/-- The members of a class; a dash between two characters makes a range. -/
def membersOf : Text → List Member
  | low :: '-' :: high :: rest => .range low high :: membersOf rest
  | c :: rest => .single c :: membersOf rest
  | [] => []

/-- A class after its opening bracket: at least one character, and all up to the next closing
bracket.  Answers the characters and the text after the class. -/
def classBody? : Text → Option (Text × Text)
  | [] => none
  | first :: rest => (Text.cut [']'] rest).map fun (more, after) => (first :: more, after)

/-- A class after its opening bracket, and the text after it. -/
def class? : Text → Option (Part × Text)
  | '!' :: rest => (classBody? rest).map fun (body, after) => (.noneOf (membersOf body), after)
  | rest => (classBody? rest).map fun (body, after) => (.oneOf (membersOf body), after)

/-- Reading the inside of a class leaves less of the pattern. -/
theorem length_classBody?_lt {t body after : Text} (h : classBody? t = some (body, after)) :
    after.length < t.length := by
  cases t with
  | nil => simp [classBody?] at h
  | cons c rest =>
    obtain ⟨⟨more, a⟩, hc, he⟩ := Option.map_eq_some_iff.1 h
    obtain ⟨-, rfl⟩ := Prod.mk.inj he
    have := congrArg List.length (Text.cut_eq_some_append hc)
    simp only [List.length_append, List.length_cons, List.length_nil] at this ⊢
    omega

/-- Reading a class leaves less of the pattern, so reading a pattern ends. -/
theorem length_class?_lt {t after : Text} {p : Part} (h : class? t = some (p, after)) :
    after.length < t.length := by
  unfold class? at h
  split at h
  all_goals
    obtain ⟨⟨body, a⟩, hb, he⟩ := Option.map_eq_some_iff.1 h
    obtain ⟨-, rfl⟩ := Prod.mk.inj he
    have := length_classBody?_lt hb
    simp only [List.length_cons] at *
    omega

/-- The parts of the rest of a pattern that starts at a position, after a character if there is
one. -/
def partsFrom (position : Nat) (previous : Option Char) (t : Text) : Except Error (List Part) :=
  match t with
  | [] => .ok []
  | '?' :: rest => (partsFrom (position + 1) (some '?') rest).map (.anyChar :: ·)
  | '*' :: '*' :: '*' :: _ => .error ⟨position + 2, .stars⟩
  | ['*', '*'] =>
    if previous.all (· == '/') then .ok [.components] else .error ⟨position - 1, .component⟩
  | '*' :: '*' :: c :: rest =>
    if !previous.all (· == '/') then .error ⟨position - 1, .component⟩
    else if c ≠ '/' then .error ⟨position + 2, .component⟩
    else (partsFrom (position + 3) (some '/') rest).map (.components :: ·)
  | '*' :: rest => (partsFrom (position + 1) (some '*') rest).map (.star :: ·)
  | '[' :: rest =>
    match _h : class? rest with
    | none => .error ⟨position, .range⟩
    | some (part, after) =>
      (partsFrom (position + (t.length - after.length)) (some ']') after).map (part :: ·)
  | c :: rest => (partsFrom (position + 1) (some c) rest).map (.literal c :: ·)
termination_by t.length
decreasing_by
  all_goals
    simp only [List.length_cons]
    try have h := length_class?_lt _h
    omega

/-- The parts of a pattern. -/
def parse (pattern : Text) : Except Error (List Part) := partsFrom 0 none pattern

/-- A part that stands for one character stands for this one. -/
def Part.accepts (c : Char) : Part → Bool
  | literal d => c == d
  | anyChar => true
  | oneOf members => members.any (·.has c)
  | noneOf members => !members.any (·.has c)
  | star | components => false

/-- A test holds for some end of a text. -/
def anySuffix (test : Text → Bool) : Text → Bool
  | [] => test []
  | c :: rest => test (c :: rest) || anySuffix test rest

/-- A test holds for the end of a text, or for what follows one of its slashes. -/
def anyComponent (test : Text → Bool) : Text → Bool
  | [] => test []
  | c :: rest => c == '/' && test rest || anyComponent test rest

/-- The parts stand for the whole text. -/
def matchesText : List Part → Text → Bool
  | [], t => t.isEmpty
  | .star :: parts, t => anySuffix (matchesText parts) t
  | .components :: parts, t => matchesText parts t || anyComponent (matchesText parts) t
  | _ :: _, [] => false
  | part :: parts, c :: rest => part.accepts c && matchesText parts rest

end Glob

/-- A pattern for whole texts. -/
structure Glob where
  pattern : Text
  parts : List Glob.Part
  deriving DecidableEq, Repr

namespace Glob

/-- The glob that a pattern writes. -/
def ofPattern (pattern : Text) : Except Error Glob := (parse pattern).map (⟨pattern, ·⟩)

/-- The glob stands for the text. -/
def accepts (g : Glob) (t : Text) : Bool := matchesText g.parts t

end Glob

end PhpLint

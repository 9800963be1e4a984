import PhpLint.Unicode.Width

/-!
# Text

Source text, and every piece cut from it, is the list of its code points.  The operations here are
the ones the rest of the library speaks about: the size in bytes, comparison up to the case of
ASCII letters, cutting at a pattern or a character, trimming, and the lines of a text.

The main facts are the ones that undo an operation: `stripStart_eq_some_iff` (a prefix is what
stands in front), `cut_eq_some_append` (the two halves and the pattern give the text back) and
`splitOn_ne_nil` (splitting yields at least one piece).
-/

namespace PhpLint

/-- A text is the list of its code points. -/
abbrev Text := List Char

/-- A space or a tab. -/
def isBlank (c : Char) : Bool := c == ' ' || c == '\t'

/-- A blank or a carriage return: what may stand between words on one line. -/
def isGap (c : Char) : Bool := isBlank c || c == '\r'

namespace Text

/-- The sum of a measure over the characters. -/
def total (measure : Char → Nat) : Text → Nat
  | [] => 0
  | c :: rest => measure c + total measure rest

/-- The sum over two texts is the sum over one and that over the other. -/
theorem total_append (measure : Char → Nat) (s t : Text) :
    total measure (s ++ t) = total measure s + total measure t := by
  induction s with
  | nil => simp [total]
  | cons c rest ih => simp only [List.cons_append, total, ih, Nat.add_assoc]

/-- The number of bytes of the UTF-8 form. -/
def utf8Length (t : Text) : Nat := total Char.utf8Size t

@[simp] theorem utf8Length_nil : utf8Length [] = 0 := rfl

@[simp] theorem utf8Length_cons (c : Char) (t : Text) :
    utf8Length (c :: t) = c.utf8Size + utf8Length t := rfl

@[simp] theorem utf8Length_append (s t : Text) :
    utf8Length (s ++ t) = utf8Length s + utf8Length t := total_append ..

/-- The text with its ASCII letters in lower case. -/
def foldCase (t : Text) : Text := t.map Char.toLower

@[simp] theorem length_foldCase (t : Text) : (foldCase t).length = t.length := by
  simp [foldCase]

/-- The same text up to the case of ASCII letters. -/
def sameLetters (s t : Text) : Bool := foldCase s == foldCase t

/-- Two texts are the same up to case when they are equal in lower case. -/
theorem sameLetters_iff {s t : Text} : sameLetters s t = true ↔ foldCase s = foldCase t := by
  simp [sameLetters]

/-- What follows `start` when the text begins with it. -/
def stripStart : Text → Text → Option Text
  | [], t => some t
  | _ :: _, [] => none
  | p :: ps, c :: cs => if p = c then stripStart ps cs else none

/-- A prefix is stripped from the texts that it stands in front of, and the rest is left. -/
theorem stripStart_eq_some_iff {start t rest : Text} :
    stripStart start t = some rest ↔ t = start ++ rest := by
  induction start generalizing t with
  | nil => simp [stripStart, eq_comm]
  | cons p ps ih =>
    cases t with
    | nil => simp [stripStart]
    | cons c cs => by_cases h : p = c <;> simp [stripStart, h, ih, eq_comm]

/-- The text begins with `start`. -/
def startsWith (start t : Text) : Bool := (stripStart start t).isSome

/-- A text starts with its prefixes and with nothing else. -/
theorem startsWith_iff {start t : Text} : startsWith start t = true ↔ start <+: t := by
  simp only [startsWith, Option.isSome_iff_exists, stripStart_eq_some_iff]
  exact ⟨fun ⟨r, h⟩ => ⟨r, h.symm⟩, fun ⟨r, h⟩ => ⟨r, h.symm⟩⟩

/-- The text ends with `tail`. -/
def endsWith (tail t : Text) : Bool := tail.isSuffixOf t

/-- What stands before and after the first occurrence of `pattern`. -/
def cut (pattern : Text) : Text → Option (Text × Text)
  | [] => if pattern.isEmpty then some ([], []) else none
  | c :: rest =>
    match stripStart pattern (c :: rest) with
    | some after => some ([], after)
    | none => (cut pattern rest).map fun halves => (c :: halves.1, halves.2)

/-- The two halves of a cut give the text back with the pattern between them. -/
theorem cut_eq_some_append {pattern t before after : Text}
    (h : cut pattern t = some (before, after)) : t = before ++ pattern ++ after := by
  induction t generalizing before with
  | nil =>
    simp only [cut] at h
    split at h <;> simp_all
  | cons c rest ih =>
    simp only [cut] at h
    split at h
    · next hs =>
      obtain ⟨rfl, rfl⟩ := Prod.mk.inj (Option.some.inj h)
      simpa using stripStart_eq_some_iff.1 hs
    · obtain ⟨⟨b, a⟩, hc, he⟩ := Option.map_eq_some_iff.1 h
      obtain ⟨rfl, rfl⟩ := Prod.mk.inj he
      simp [ih hc]

/-- The text holds an occurrence of `pattern`. -/
def includes (pattern t : Text) : Bool := (cut pattern t).isSome

/-- The pieces between the occurrences of a character. -/
def splitOn (separator : Char) : Text → List Text
  | [] => [[]]
  | c :: rest =>
    if c = separator then [] :: splitOn separator rest
    else match splitOn separator rest with
      | [] => [[c]]
      | piece :: pieces => (c :: piece) :: pieces

/-- Splitting a text yields at least one piece. -/
theorem splitOn_ne_nil (separator : Char) (t : Text) : splitOn separator t ≠ [] := by
  cases t with
  | nil => simp [splitOn]
  | cons c rest =>
    simp only [splitOn]
    split
    · simp
    · split <;> simp

/-- The pieces put back together, a separator between any two. -/
def joinWith (separator : Text) : List Text → Text
  | [] => []
  | [t] => t
  | t :: ts => t ++ separator ++ joinWith separator ts

/-- The text without the characters of a class in front. -/
def trimStartOf (p : Char → Bool) (t : Text) : Text := t.dropWhile p

/-- The text without the characters of a class at its end. -/
def trimEndOf (p : Char → Bool) (t : Text) : Text := (t.reverse.dropWhile p).reverse

/-- The text without white space at its end. -/
def trimEnd (t : Text) : Text := trimEndOf Unicode.isSpace t

/-- The text without white space at either end. -/
def trim (t : Text) : Text := trimEnd (trimStartOf Unicode.isSpace t)

/-- The text without a carriage return at its end. -/
def dropReturn (t : Text) : Text := if t.getLast? = some '\r' then t.dropLast else t

/-- The lines of a text.  A line ends at a line feed, to which a carriage return before it belongs;
what follows the last line feed is a line unless it is empty. -/
def lines (t : Text) : List Text :=
  let pieces := splitOn '\n' t
  let last := pieces.getLast?.getD []
  pieces.dropLast.map dropReturn ++ (if last.isEmpty then [] else [last])

end Text

end PhpLint

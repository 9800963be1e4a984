import Mathlib.Data.List.Infix
import PhpLint.Lexeme.Comment
import PhpLint.Lexeme.Literal
import PhpLint.Lexeme.Number

/-!
# What the readers of constructs look at

Several readers match on the first characters of a text.  Here they are given as what they ask: the
text that stands in front, the first character behind it, and the run of a class of characters.  A
heredoc's header is taken apart into its marker, the quotes around it and the line end behind it.
-/

namespace PhpLint

/-! ## Comments -/

namespace Comment

/-- A line comment is cut off the front of the text. -/
theorem untilLineEnd_isPrefix (t : Text) : untilLineEnd t <+: t := by
  fun_induction untilLineEnd t with
  | case1 => exact List.prefix_rfl
  | case2 => exact List.nil_prefix
  | case3 => exact List.nil_prefix
  | case4 c rest hfeed hclose ih => exact List.cons_prefix_cons.2 ⟨rfl, ih⟩

/-- A line comment holds no line feed. -/
theorem feed_notMem_untilLineEnd (t : Text) : '\n' ∉ untilLineEnd t := by
  fun_induction untilLineEnd t with
  | case1 => exact List.not_mem_nil
  | case2 => exact List.not_mem_nil
  | case3 => exact List.not_mem_nil
  | case4 c rest hfeed hclose ih =>
    rw [List.mem_cons, not_or]
    exact ⟨Ne.symm hfeed, ih⟩

/-- A doc comment opens with two stars and white space. -/
theorem opensDoc_eq (t : Text) :
    opensDoc t = (Text.stripStart ['*', '*'] t).any fun rest => rest.head?.any Unicode.isSpace := by
  cases hstars : Text.stripStart ['*', '*'] t with
  | none =>
    unfold opensDoc
    split
    · simp [Text.stripStart] at hstars
    · rfl
  | some rest =>
    obtain rfl := Text.stripStart_eq_some_iff.1 hstars
    cases rest <;> rfl

end Comment

/-! ## String literals -/

namespace Literal

/-- A character that is read by itself in a string is no backslash. -/
theorem ne_backslash_of_alone {c : Char} {t : Text} (hlast : c = '\\' → t = [] → False)
    (hpair : ∀ d rest, c = '\\' → t = d :: rest → False) : c ≠ '\\' := by
  intro hc
  cases t with
  | nil => exact hlast hc rfl
  | cons d rest => exact hpair d rest hc rfl

/-- Up to the end of a string a character that is no backslash is the quote or is passed. -/
theorem quotedTail?_cons {quote c : Char} (hc : c ≠ '\\') (t : Text) :
    quotedTail? quote (c :: t) =
      if c = quote then some 1 else (quotedTail? quote t).map (· + 1) := by
  rw [quotedTail?]
  · exact fun h => absurd h hc
  · exact fun d rest h => absurd h hc

/-- The line end at the front of a text. -/
def lineEnd? : Text → Option Nat
  | '\n' :: _ => some 1
  | '\r' :: '\n' :: _ => some 2
  | _ => none

/-- What follows the marker's closing quote, if it has to have one. -/
def afterQuote? (quote : Option Char) (t : Text) : Option Text :=
  match quote with
  | none => some t
  | some q => if t.head? = some q then some (t.drop 1) else none

/-- The marker at the front of a text behind `front` characters, and the length of the header. -/
def headerFrom (front : Nat) (quote : Option Char) (name : Text) : Option (Text × Nat) :=
  let marker := name.takeWhile isNameChar
  if name.head?.any isNameStart then
    (afterQuote? quote (name.drop marker.length)).bind fun after =>
      (lineEnd? after).map fun ending =>
        (marker, front + marker.length + (if quote.isSome then 1 else 0) + ending)
  else none

/-- A character that quotes a marker. -/
def isMarkerQuote (c : Char) : Bool := c == '\'' || c == '"'

/-- A header is read behind the blanks in front and past an opening quote. -/
theorem heredocHeader?_eq (t : Text) :
    heredocHeader? t =
      let blanks := (t.takeWhile isBlank).length
      let name := t.drop blanks
      match name.head?.filter isMarkerQuote with
      | none => headerFrom blanks none name
      | some q => headerFrom (blanks + 1) (some q) (name.drop 1) := by
  have hending (front : Nat) (marker after : Text) :
      (match after with
        | '\n' :: _ => some (marker, front + 1)
        | '\r' :: '\n' :: _ => some (marker, front + 2)
        | _ => none) = (lineEnd? after).map fun ending => (marker, front + ending) := by
    unfold lineEnd?
    split <;> rfl
  unfold heredocHeader?
  dsimp only
  generalize t.drop (t.takeWhile isBlank).length = u
  change _ = match u.head?.filter fun c => c == '\'' || c == '"' with
    | none => _
    | some q => _
  cases u.head?.filter fun c => c == '\'' || c == '"' with
  | none =>
    unfold headerFrom afterQuote?
    simp only [Option.isSome_none, Bool.false_eq_true, if_false, Option.bind_some, Nat.add_zero]
    cases u.head?.any isNameStart with
    | true => exact hending _ _ _
    | false => rfl
  | some q =>
    unfold headerFrom afterQuote?
    simp only [Option.isSome_some, if_true]
    cases (u.drop 1).head?.any isNameStart with
    | false => rfl
    | true =>
      simp only [if_true]
      generalize (u.drop 1).takeWhile isNameChar = marker
      generalize (u.drop 1).drop marker.length = v
      by_cases hclosed : v.head? = some q
      · have hlength (blanks : Nat) :
            blanks + marker.length + 2 = blanks + 1 + marker.length + 1 := by omega
        rw [if_pos hclosed, Option.bind_some, ← hlength]
        exact hending _ _ _
      · rw [if_neg hclosed]
        rfl

/-- A heredoc is two more signs, a header, and the text up to the line that closes it; without such a
line it is a fault. -/
theorem heredoc?_eq (rest : Text) :
    heredoc? rest = (Text.stripStart ['<', '<'] rest).bind fun t =>
      (heredocHeader? t).map fun header =>
        match heredocTail? header.1 true (t.drop header.2) with
        | some tail => .ok (2 + header.2 + tail)
        | none => .error .unterminatedHeredoc := by
  cases hsigns : Text.stripStart ['<', '<'] rest with
  | none =>
    unfold heredoc?
    split
    · simp [Text.stripStart] at hsigns
    · rfl
  | some t =>
    obtain rfl := Text.stripStart_eq_some_iff.1 hsigns
    rfl

end Literal

/-! ## Numbers -/

namespace Number

/-- A fraction is a point and the run of digits behind it, or nothing. -/
theorem fractionLength_eq (t : Text) :
    fractionLength t =
      if t.head? = some '.' ∧ startsWithDigit (t.drop 1) = true then
        1 + ((t.drop 1).takeWhile isDigitOrMark).length
      else 0 := by
  fun_cases fractionLength t with
  | case1 rest hdigit => exact (if_pos ⟨rfl, hdigit⟩).symm
  | case2 rest hdigit => exact (if_neg fun h => hdigit h.2).symm
  | case3 t h =>
    rw [if_neg]
    rintro ⟨hhead, -⟩
    obtain ⟨rest, rfl⟩ := List.head?_eq_some_iff.1 hhead
    exact h rest rfl

/-- An integer in another base is a zero, a letter, and the run of digits behind them. -/
theorem basedLength?_eq (t : Text) :
    basedLength? t =
      if t.head? = some '0' ∧ (t.drop 1).head?.any (['x', 'X', 'b', 'B'].contains ·) = true then
        some (2 + ((t.drop 2).takeWhile isHexOrMark).length)
      else none := by
  fun_cases basedLength? t with
  | case1 c rest hc =>
    rw [if_pos]
    · rfl
    · simpa using hc
  | case2 c rest hc =>
    rw [if_neg]
    simpa using hc
  | case3 t h =>
    rw [if_neg]
    intro ⟨hhead, hnext⟩
    obtain ⟨rest, rfl⟩ := List.head?_eq_some_iff.1 hhead
    cases rest with
    | nil => simp at hnext
    | cons c rest => exact h c rest rfl

end Number

end PhpLint

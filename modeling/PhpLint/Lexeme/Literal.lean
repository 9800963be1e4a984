import PhpLint.Lexeme

/-!
# String literals

A quoted string ends at the next quote of its kind that no backslash stands before.  A heredoc
starts with three less-than signs and a **marker**, in quotes or bare, that ends its line; it ends
at the first later line that holds the marker after blanks, where no character of a name follows.
-/

namespace PhpLint.Literal

/-- The length of the text up to and with the closing quote, if the quote is closed. -/
def quotedTail? (quote : Char) : Text → Option Nat
  | [] => none
  | ['\\'] => none
  | '\\' :: _ :: rest => (quotedTail? quote rest).map (· + 2)
  | c :: rest => if c = quote then some 1 else (quotedTail? quote rest).map (· + 1)

/-- The marker of a heredoc, and the length of the text up to and with its line end. -/
def heredocHeader? (afterSigns : Text) : Option (Text × Nat) :=
  let blanks := (afterSigns.takeWhile isBlank).length
  let t := afterSigns.drop blanks
  let quote := t.head?.filter fun c => c == '\'' || c == '"'
  let name := if quote.isSome then t.drop 1 else t
  let marker := name.takeWhile isNameChar
  let afterName := name.drop marker.length
  let closed := match quote with
    | none => some afterName
    | some q => if afterName.head? = some q then some (afterName.drop 1) else none
  match name.head?.any isNameStart, closed with
  | true, some after =>
    let header := blanks + marker.length + (if quote.isSome then 2 else 0)
    match after with
    | '\n' :: _ => some (marker, header + 1)
    | '\r' :: '\n' :: _ => some (marker, header + 2)
    | _ => none
  | _, _ => none

/-- The length of blanks and marker when they start the text and end the heredoc. -/
def heredocClose? (marker t : Text) : Option Nat :=
  let blanks := (t.takeWhile isBlank).length
  match Text.stripStart marker (t.drop blanks) with
  | some after => if after.head?.any isNameChar then none else some (blanks + marker.length)
  | none => none

/-- The length of a heredoc's body up to and with the closing marker, if there is one. -/
def heredocTail? (marker : Text) (lineStart : Bool) : Text → Option Nat
  | [] => none
  | c :: rest =>
    match if lineStart then heredocClose? marker (c :: rest) else none with
    | some length => some length
    | none => (heredocTail? marker (c == '\n') rest).map (· + 1)

/-- After the first sign of a heredoc: the outcome of reading it, if a header stands there. -/
def heredoc? (rest : Text) : Option (Except Fault Nat) :=
  match rest with
  | '<' :: '<' :: t =>
    (heredocHeader? t).map fun (marker, header) =>
      match heredocTail? marker true (t.drop header) with
      | some tail => .ok (2 + header + tail)
      | none => .error .unterminatedHeredoc
  | _ => none

end PhpLint.Literal

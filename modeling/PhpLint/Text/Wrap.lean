import PhpLint.Text
import PhpLint.Unicode.Alphanumeric

/-!
# Wrapping text

A text may be broken after blanks, and after a hyphen between two letters or digits.  Lines are
filled greedily: a fragment that does not fit any more starts the next line.
-/

namespace PhpLint.Text

/-- The number of columns that a text takes. -/
def width (t : Text) : Nat := total Unicode.width t

/-- A line may end after a character that stands between two others. -/
def mayBreak (previous : Option Char) (c next : Char) : Bool :=
  c == ' ' && next != ' ' ||
    c == '-' && previous.any Unicode.isAlphanumeric && Unicode.isAlphanumeric next

/-- The fragments of a text after a character, if there is one. -/
def fragmentsFrom (previous : Option Char) : Text → List Text
  | [] => []
  | [c] => [[c]]
  | c :: next :: rest =>
    match fragmentsFrom (some c) (next :: rest) with
    | [] => [[c]]
    | first :: more =>
      if mayBreak previous c next then [c] :: first :: more else (c :: first) :: more

/-- The fragments between which a text may be broken. -/
def fragments (t : Text) : List Text := fragmentsFrom none t

/-- A text without blanks at its end. -/
def trimBlanks (t : Text) : Text := trimEndOf (· == ' ') t

/-- The lines that fragments fill after the beginning of a line. -/
def fillFrom (limit : Nat) (line : Text) : List Text → List Text
  | [] => [trimBlanks line]
  | f :: fs =>
    if !line.isEmpty && limit < width line + width (trimBlanks f) then
      trimBlanks line :: fillFrom limit f fs
    else fillFrom limit (line ++ f) fs

/-- The lines of a text of a limited width. -/
def wrap (limit : Nat) (t : Text) : List Text := fillFrom limit [] (fragments t)

/-- A text wrapped within a width, its first line and the others behind their indents. -/
def wrapIndented (limit : Nat) (first others t : Text) : List Text :=
  match wrap (limit - width first) t with
  | [] => [first]
  | line :: lines => (first ++ line) :: lines.map (others ++ ·)

end PhpLint.Text

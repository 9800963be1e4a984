import PhpLint.Text

/-!
# Bytes as text

The bytes of a file are read as UTF-8, one byte after another.  Between characters nothing is
pending; within a character the bytes so far say how many are still owed and which ones may come
next.  A byte that may not come next ends a malformed piece, which holds the bytes before it, and
starts over.

`decode` answers the text, or where the first piece that is no character starts and how long it is.
`decodeLossy` puts one replacement character in the place of each such piece.
-/

namespace PhpLint.Utf8

/-- A character whose bytes are not all there. -/
structure Pending where
  /-- The number of bytes that are there. -/
  taken : Nat
  /-- The number of bytes that are still owed. -/
  owed : Nat
  /-- The least byte that may come next. -/
  low : UInt8
  /-- The greatest byte that may come next. -/
  high : UInt8
  /-- The value of the bytes that are there. -/
  value : Nat
  deriving DecidableEq, Repr

/-- A piece of the bytes of a file. -/
inductive Piece
  | character (c : Char)
  /-- Bytes that belong to no character. -/
  | malformed (length : Nat)
  /-- The end of the bytes inside of a character. -/
  | truncated
  deriving DecidableEq, Repr

/-- What a byte starts: a whole character, a pending one, or nothing. -/
def begin (b : UInt8) : Piece ⊕ Pending :=
  if b < 0x80 then .inl (.character (Char.ofNat b.toNat))
  else if b < 0xC2 then .inl (.malformed 1)
  else if b < 0xE0 then .inr ⟨1, 1, 0x80, 0xBF, b.toNat - 0xC0⟩
  else if b = 0xE0 then .inr ⟨1, 2, 0xA0, 0xBF, 0⟩
  else if b = 0xED then .inr ⟨1, 2, 0x80, 0x9F, 0xD⟩
  else if b < 0xF0 then .inr ⟨1, 2, 0x80, 0xBF, b.toNat - 0xE0⟩
  else if b = 0xF0 then .inr ⟨1, 3, 0x90, 0xBF, 0⟩
  else if b < 0xF4 then .inr ⟨1, 3, 0x80, 0xBF, b.toNat - 0xF0⟩
  else if b = 0xF4 then .inr ⟨1, 3, 0x80, 0x8F, 4⟩
  else .inl (.malformed 1)

/-- What one more byte makes of a pending character, if it may come next. -/
def extend? (p : Pending) (b : UInt8) : Option (Piece ⊕ Pending) :=
  if p.low ≤ b ∧ b ≤ p.high then
    let value := p.value * 64 + (b.toNat - 0x80)
    if p.owed ≤ 1 then some (.inl (.character (Char.ofNat value)))
    else some (.inr ⟨p.taken + 1, p.owed - 1, 0x80, 0xBF, value⟩)
  else none

/-- The pieces of some bytes, after a pending character if there is one. -/
def piecesFrom : Option Pending → List UInt8 → List Piece
  | none, [] => []
  | some _, [] => [.truncated]
  | none, b :: rest =>
    match begin b with
    | .inl piece => piece :: piecesFrom none rest
    | .inr p => piecesFrom (some p) rest
  | some p, b :: rest =>
    match extend? p b with
    | some (.inl piece) => piece :: piecesFrom none rest
    | some (.inr q) => piecesFrom (some q) rest
    | none =>
      .malformed p.taken ::
        match begin b with
        | .inl piece => piece :: piecesFrom none rest
        | .inr q => piecesFrom (some q) rest

/-- The pieces of some bytes. -/
def pieces (bytes : List UInt8) : List Piece := piecesFrom none bytes

/-- Why bytes are no text. -/
structure Fault where
  /-- Where the first piece that is no character starts. -/
  offset : Nat
  /-- Its length, or nothing when the bytes end inside of a character. -/
  length : Option Nat
  deriving DecidableEq, Repr

/-- The wording of a fault. -/
def Fault.message (f : Fault) : String :=
  match f.length with
  | some n => s!"invalid utf-8 sequence of {n} bytes from index {f.offset}"
  | none => s!"incomplete utf-8 byte sequence from index {f.offset}"

/-- The characters of pieces that start at an offset, if they are all characters. -/
def charactersFrom (offset : Nat) : List Piece → Except Fault Text
  | [] => .ok []
  | .character c :: rest => (charactersFrom (offset + c.utf8Size) rest).map (c :: ·)
  | .malformed n :: _ => .error ⟨offset, some n⟩
  | .truncated :: _ => .error ⟨offset, none⟩

/-- The text that bytes write. -/
def decode (bytes : List UInt8) : Except Fault Text := charactersFrom 0 (pieces bytes)

/-- What stands in the place of bytes that are no character. -/
def replacement : Char := Char.ofNat 0xFFFD

/-- The character for a piece. -/
def Piece.shown : Piece → Char
  | character c => c
  | _ => replacement

/-- The text that bytes write, each piece that is no character replaced. -/
def decodeLossy (bytes : List UInt8) : Text := (pieces bytes).map Piece.shown

/-- The bytes of a text. -/
def encode (t : Text) : List UInt8 := t.flatMap String.utf8EncodeChar

end PhpLint.Utf8

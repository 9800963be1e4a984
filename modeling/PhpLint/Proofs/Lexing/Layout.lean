import Mathlib.Data.List.DropRight
import PhpLint.FileContext
import PhpLint.Proofs.Lexing.Reading

/-!
# Where the tokens of a source stand

The tokens of a source are its lexemes, each at the position past the lexemes before it.  A stream
is **laid out** over a source when it holds the lexemes of a reading of the source in that way;
`exists_laidOut` says that every stream of a source is.

The positions themselves are read off the text in front: the line from the number of its line
feeds, the column from the length of its last line, and the offset from its bytes
(`LaidOut.line_eq`, `LaidOut.column_eq`, `LaidOut.offset_eq`).  A byte order mark counts for the
offset alone.
-/

namespace PhpLint

/-- The characters after the last line feed. -/
def Text.lastLine (t : Text) : Text := t.rtakeWhile (· != '\n')

/-- A text without a line feed is its last line. -/
theorem Text.lastLine_of_not_mem {t : Text} (h : '\n' ∉ t) : lastLine t = t := by
  refine List.rtakeWhile_eq_self_iff.2 fun c hc => ?_
  simp only [bne_iff_ne, ne_eq]
  rintro rfl
  exact h hc

namespace Position

/-- The line counts up by the line feeds that are passed. -/
theorem line_past (p : Position) (t : Text) : (p.past t).line = p.line + t.count '\n' := by
  induction t using List.reverseRecOn with
  | nil => rfl
  | append_singleton t c ih =>
    rw [past_append]
    by_cases hc : c = '\n'
    · simp [past, next, hc] at ih ⊢
      omega
    · simpa [past, next, hc] using ih

/-- After a text the column counts on from where it was, or from one past the last line feed. -/
theorem column_past (p : Position) (t : Text) :
    (p.past t).column = (if '\n' ∈ t then 1 else p.column) + (Text.lastLine t).length := by
  induction t using List.reverseRecOn with
  | nil => simp [Text.lastLine]
  | append_singleton t c ih =>
    rw [past_append]
    by_cases hc : c = '\n'
    · simp [past, next, hc, Text.lastLine]
    · have hc' : '\n' ≠ c := Ne.symm hc
      simp [past, next, hc, hc', Text.lastLine] at ih ⊢
      omega

end Position

namespace Token

/-- The byte order mark in front of a source, if there is one. -/
def mark (source : Text) : Text := if source.head? = some byteOrderMark then [byteOrderMark] else []

/-- A source without the byte order mark in front. -/
def withoutMark (source : Text) : Text :=
  if source.head? = some byteOrderMark then source.tail else source

/-- A source is its mark and the rest. -/
theorem mark_append_withoutMark (source : Text) : mark source ++ withoutMark source = source := by
  unfold mark withoutMark
  split
  · next h => exact (List.eq_cons_of_mem_head? h).symm
  · rfl

theorem count_mark (source : Text) : (mark source).count '\n' = 0 := by
  unfold mark
  split <;> rfl

/-- Of the text up to a place in the source, what is not the mark. -/
theorem withoutMark_append {source before after : Text}
    (h : source = mark source ++ before ++ after) :
    withoutMark (mark source ++ before) = before := by
  unfold mark at h ⊢
  split at h
  · next hmark => simp [hmark, withoutMark]
  · next hmark =>
    rw [if_neg hmark, List.nil_append, withoutMark]
    cases before with
    | nil => simp
    | cons c before =>
      -- The source starts with the same character, which is not the mark.
      rw [if_neg]
      rw [h] at hmark
      simpa using hmark

/-- Where a source's own text starts: after the mark, on line one and in column one. -/
def origin (source : Text) : Position := ⟨1, 1, Text.utf8Length (mark source)⟩

/-- Reading starts behind the mark, at the origin. -/
theorem skipMark_eq (source : Text) : skipMark source = (origin source, withoutMark source) := by
  unfold skipMark origin mark withoutMark
  cases source with
  | nil => rfl
  | cons c rest => by_cases hc : c = byteOrderMark <;> simp [hc, Position.start]

/-- The tokens of a source are the lexemes of its scan, placed from the origin on, unless the scan has a
fault. -/
theorem ofSource_eq (source : Text) :
    ofSource source =
      match (Scan.ofSource (withoutMark source)).fault with
      | none => .ok (place (origin source) (Scan.ofSource (withoutMark source)).lexemes)
      | some fault =>
        let p := (origin source).past (Lexeme.spell (Scan.ofSource (withoutMark source)).lexemes)
        .error ⟨fault, p.line, p.column⟩ := by
  cases hfault : (Scan.ofSource (withoutMark source)).fault <;>
    simp only [ofSource, skipMark_eq, hfault]

/-- A lexeme as a token at a position. -/
def standing (p : Position) (l : Lexeme) : Token := ⟨l.kind, l.text, p.line, p.column, p.offset⟩

/-- The position at which a token starts. -/
def position (t : Token) : Position := ⟨t.line, t.column, t.offset⟩

/-- A lexeme is placed past the lexemes before it. -/
theorem getElem?_place (p : Position) (ls : List Lexeme) (i : Nat) :
    (place p ls)[i]? = ls[i]?.map (standing (p.past (Lexeme.spell (ls.take i)))) := by
  induction ls generalizing p i with
  | nil => rfl
  | cons l ls ih =>
    cases i with
    | zero => rfl
    | succ i => simp [place, ih]

/-- As many tokens as lexemes are placed. -/
theorem length_place (p : Position) (ls : List Lexeme) : (place p ls).length = ls.length := by
  induction ls generalizing p with
  | nil => rfl
  | cons l ls ih => simp [place, ih]

/-- The placed tokens have the texts of the lexemes. -/
theorem content_place (p : Position) (ls : List Lexeme) :
    (place p ls).map Token.content = ls.map Lexeme.text := by
  induction ls generalizing p with
  | nil => rfl
  | cons l ls ih => simp [place, ih]

end Token

/-- What was worked out for an answer holds of that answer. -/
theorem exists_of_map_eq_ok {ε α β : Type} {answer : Except ε α} {f : α → β} {x : β}
    (h : answer.map f = .ok x) : ∃ a, answer = .ok a ∧ f a = x := by
  cases answer with
  | ok a => exact ⟨a, rfl, Except.ok.inj h⟩
  | error e => cases h

namespace TokenStream

open Token (mark withoutMark origin)

/-- A token is there only below the size of the stream. -/
theorem lt_size_of_token? {s : TokenStream} {i : Nat} {t : Token} (h : s.token? i = some t) :
    i < s.size :=
  (Array.getElem?_eq_some_iff.1 h).1

theorem exists_token? {s : TokenStream} {i : Nat} (h : i < s.size) : ∃ t, s.token? i = some t :=
  ⟨_, Array.getElem?_eq_getElem h⟩

/-- The tokens of a stream are the lexemes of a reading of the source, placed one after another. -/
structure LaidOut (source : Text) (s : TokenStream) (ls : List Lexeme) : Prop where
  reads : Scan.Reads (withoutMark source) ls
  tokens : s.tokens.toList = Token.place (origin source) ls

/-- A source with a stream is scanned without a fault, and its tokens are the scan's lexemes. -/
theorem scan_of_ofSource {source : Text} {s : TokenStream} (h : ofSource source = .ok s) :
    (Scan.ofSource (withoutMark source)).fault = none ∧
      s.tokens.toList =
        Token.place (origin source) (Scan.ofSource (withoutMark source)).lexemes := by
  simp only [ofSource, Token.ofSource_eq] at h
  cases hfault : (Scan.ofSource (withoutMark source)).fault with
  | none =>
    rw [hfault] at h
    obtain rfl := Except.ok.inj h
    exact ⟨rfl, rfl⟩
  | some fault =>
    rw [hfault] at h
    cases h

/-- Every stream of a source is laid out over it. -/
theorem exists_laidOut {source : Text} {s : TokenStream} (h : ofSource source = .ok s) :
    ∃ ls, LaidOut source s ls := by
  obtain ⟨hfault, htokens⟩ := scan_of_ofSource h
  exact ⟨_, Scan.reads_ofText hfault, htokens⟩

/-- What was worked out for the stream of a source holds of that stream. -/
theorem exists_of_map_ofSource {source : Text} {α : Type} {f : TokenStream → α} {x : α}
    (h : (ofSource source).map f = .ok x) : ∃ s, ofSource source = .ok s ∧ f s = x :=
  exists_of_map_eq_ok h

/-- A source whose stream has a size has a stream. -/
theorem exists_of_size_ofSource {source : Text} {n : Nat} (h : (ofSource source).map size = .ok n) :
    ∃ s, ofSource source = .ok s ∧ s.size = n :=
  exists_of_map_ofSource h

namespace LaidOut

variable {source : Text} {s : TokenStream} {ls : List Lexeme}

/-- A stream has as many tokens as lexemes are read. -/
theorem size_eq (h : LaidOut source s ls) : s.size = ls.length := by
  rw [size, ← Array.length_toList, h.tokens, Token.length_place]

theorem token?_eq (h : LaidOut source s ls) (i : Nat) :
    s.token? i =
      ls[i]?.map (Token.standing ((origin source).past (Lexeme.spell (ls.take i)))) := by
  rw [← Token.getElem?_place, ← h.tokens]
  simp [token?]

/-- The kinds of the stream are those of the lexemes. -/
theorem kind?_eq (h : LaidOut source s ls) (i : Nat) : s.kind? i = ls[i]?.map Lexeme.kind := by
  simp [kind?, h.token?_eq, Function.comp_def, Token.standing]

/-! ## Texts of stretches -/

/-- The text of a stretch is what its lexemes spell. -/
theorem textBetween_eq (h : LaidOut source s ls) (a b : Nat) :
    s.textBetween a b = Lexeme.spell ((ls.take (b + 1)).drop a) := by
  have hcontents : s.tokens.toList.map Token.content = ls.map Lexeme.text := by
    rw [h.tokens, Token.content_place]
  simp only [textBetween, Lexeme.spell, List.flatMap_def, List.map_drop, List.map_take, hcontents]

/-- A part of the lexemes spells the text between its ends. -/
theorem textBetween_append {xs ys zs : List Lexeme} (h : LaidOut source s (xs ++ ys ++ zs))
    {a b : Nat} (ha : a = xs.length) (hb : b + 1 = xs.length + ys.length) :
    s.textBetween a b = Lexeme.spell ys := by
  have htake : (xs ++ ys ++ zs).take (b + 1) = xs ++ ys := List.take_left' (by simp [hb])
  rw [h.textBetween_eq, htake, ha, List.drop_left]

/-- The lexemes up to a token spell those before a stretch that ends with it, and the stretch. -/
theorem spell_take_add_one (h : LaidOut source s ls) {a b : Nat} (hab : a ≤ b) :
    Lexeme.spell (ls.take (b + 1)) = Lexeme.spell (ls.take a) ++ s.textBetween a b := by
  have htake : (ls.take (b + 1)).take a = ls.take a := by
    rw [List.take_take, Nat.min_eq_left (by omega)]
  rw [h.textBetween_eq, ← htake, ← Lexeme.spell_append, List.take_append_drop]

/-- The source falls into the mark, the text in front of a stretch of tokens, the stretch, and the
rest. -/
theorem source_eq (h : LaidOut source s ls) {a b : Nat} (hab : a ≤ b) :
    source = mark source ++ Lexeme.spell (ls.take a) ++ s.textBetween a b ++
      Lexeme.spell (ls.drop (b + 1)) := by
  calc source = mark source ++ withoutMark source := (Token.mark_append_withoutMark source).symm
    _ = mark source ++ Lexeme.spell ls := by rw [h.reads.spell_eq]
    _ = mark source ++ Lexeme.spell (ls.take (b + 1) ++ ls.drop (b + 1)) := by
      rw [List.take_append_drop]
    _ = mark source ++ Lexeme.spell (ls.take a) ++ s.textBetween a b ++
          Lexeme.spell (ls.drop (b + 1)) := by
      rw [Lexeme.spell_append, h.spell_take_add_one hab]
      simp only [List.append_assoc]

/-! ## One token -/

section Token

variable {i : Nat} {t : Token}

/-- A token has the kind and the text of its lexeme. -/
theorem lexeme_eq (h : LaidOut source s ls) (ht : s.token? i = some t) :
    ls[i]? = some ⟨t.kind, t.content⟩ := by
  rw [h.token?_eq] at ht
  obtain ⟨l, hl, rfl⟩ := Option.map_eq_some_iff.1 ht
  exact hl

/-- A token stands past the lexemes before it. -/
theorem position_eq (h : LaidOut source s ls) (ht : s.token? i = some t) :
    t.position = (origin source).past (Lexeme.spell (ls.take i)) := by
  rw [h.token?_eq] at ht
  obtain ⟨l, -, rfl⟩ := Option.map_eq_some_iff.1 ht
  rfl

/-- The offset of a token is the number of bytes before it, the mark included. -/
theorem offset_eq (h : LaidOut source s ls) (ht : s.token? i = some t) :
    t.offset = Text.utf8Length (mark source ++ Lexeme.spell (ls.take i)) := by
  have hoffset := congrArg Position.offset (h.position_eq ht)
  rw [Position.offset_past] at hoffset
  rwa [Text.utf8Length_append]

/-- The line of a token is one more than the line feeds before it. -/
theorem line_eq (h : LaidOut source s ls) (ht : s.token? i = some t) :
    t.line = 1 + (Lexeme.spell (ls.take i)).count '\n' := by
  have hline := congrArg Position.line (h.position_eq ht)
  rwa [Position.line_past] at hline

/-- The column of a token is one more than what stands before it on its line. -/
theorem column_eq (h : LaidOut source s ls) (ht : s.token? i = some t) :
    t.column = 1 + (Text.lastLine (Lexeme.spell (ls.take i))).length := by
  have hcolumn := congrArg Position.column (h.position_eq ht)
  rw [Position.column_past] at hcolumn
  simpa [origin, Token.position] using hcolumn

/-- The text of a stretch of one token is the token's own. -/
theorem textBetween_self (h : LaidOut source s ls) (ht : s.token? i = some t) :
    s.textBetween i i = t.content := by
  have hlt : i < ls.length := (List.getElem?_eq_some_iff.1 (h.lexeme_eq ht)).1
  have hfront : (ls.take i).length = i := by simp; omega
  rw [h.textBetween_eq, List.take_add_one, h.lexeme_eq ht,
    List.drop_append_of_le_length hfront.ge, List.drop_eq_nil_of_le hfront.le]
  simp

/-- Past a token lie the bytes of the lexemes up to it. -/
theorem stop_eq (h : LaidOut source s ls) (ht : s.token? i = some t) :
    t.offset + Text.utf8Length t.content =
      Text.utf8Length (mark source ++ Lexeme.spell (ls.take (i + 1))) := by
  rw [h.offset_eq ht, h.spell_take_add_one (Nat.le_refl i), h.textBetween_self ht]
  simp [Nat.add_assoc]

end Token

/-- A token stands past the text from an earlier one to the one before it. -/
theorem position_past (h : LaidOut source s ls) {i j : Nat} {t u : Token} (hij : i ≤ j)
    (ht : s.token? i = some t) (hu : s.token? (j + 1) = some u) :
    u.position = t.position.past (s.textBetween i j) := by
  rw [h.position_eq hu, h.position_eq ht, h.spell_take_add_one hij, Position.past_append]

end LaidOut

end TokenStream

namespace FileContext

/-- What was worked out for a file on its own holds of its context. -/
theorem exists_context {source : Text} {P : FileContext → Prop} [DecidablePred P]
    (h : (TokenStream.ofSource source).map
      (fun s => decide (P ⟨source, s, SymbolTable.ofStreams [s], ⟨[]⟩⟩)) = .ok true) :
    ∃ ctx : FileContext, ctx.source = source ∧ TokenStream.ofSource ctx.source = .ok ctx.stream ∧
      ctx.symbols = SymbolTable.ofStreams [ctx.stream] ∧ P ctx := by
  obtain ⟨s, hs, htrue⟩ := TokenStream.exists_of_map_ofSource h
  exact ⟨_, rfl, hs, rfl, of_decide_eq_true htrue⟩

end FileContext

end PhpLint

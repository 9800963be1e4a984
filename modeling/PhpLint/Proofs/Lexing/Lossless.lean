import PhpLint.Proofs.Lexing.ByteSlice
import PhpLint.Proofs.Lexing.Layout

/-!
# Lossless lexing

The tokens of a source hold all of it and nothing else.  Put together they give the source back,
less a byte order mark in front; each stands where its offset says, the next one starts where it
stops, and none is empty.

All of this follows from the layout of the stream: the bytes before the `i`-th token are those of
the mark and of the lexemes before it, and the bytes before its end those of one lexeme more.
-/

namespace PhpLint

/-- Lexemes that are not empty are no more than the characters they spell. -/
theorem Lexeme.length_le_length_spell {ls : List Lexeme} (h : ∀ l ∈ ls, l.text ≠ []) :
    ls.length ≤ (spell ls).length := by
  induction ls with
  | nil => simp
  | cons l ls ih =>
    have hl : 0 < l.text.length := List.length_pos_iff.2 (h l List.mem_cons_self)
    have hls := ih fun l' hl' => h l' (List.mem_cons_of_mem _ hl')
    simp only [List.length_cons, spell_cons, List.length_append]
    omega

namespace TokenStream

open Token (mark withoutMark byteOrderMark)

/-- The tokens of a stream hold a source without loss. -/
structure Lossless (source : Text) (s : TokenStream) : Prop where
  /-- The contents in order are the source without a byte order mark in front. -/
  contents : s.tokens.toList.flatMap Token.content = withoutMark source
  content_ne_nil : ∀ i t, s.token? i = some t → t.content ≠ []
  /-- The first token starts the source, or follows the three bytes of the mark. -/
  first : ∀ t, s.token? 0 = some t →
    t.offset = if source.head? = some byteOrderMark then 3 else 0
  /-- A token is the piece of the source at its offset. -/
  slice : ∀ i t, s.token? i = some t →
    Text.slice? t.offset (t.offset + Text.utf8Length t.content) source = some t.content
  /-- A token starts where the one before it stops. -/
  next : ∀ i t u, s.token? i = some t → s.token? (i + 1) = some u →
    u.offset = t.offset + Text.utf8Length t.content
  /-- The last token stops where the source does. -/
  last : ∀ t, s.token? (s.size - 1) = some t →
    t.offset + Text.utf8Length t.content = Text.utf8Length source
  size_le : s.size ≤ (withoutMark source).length
  /-- The text from one token to another is the source from the start of the one to the end of the
  other. -/
  between : ∀ a b t u, a ≤ b → s.token? a = some t → s.token? b = some u →
    ∃ text, s.textBetween? a b = .ok text ∧
      Text.slice? t.offset (u.offset + Text.utf8Length u.content) source = some text

namespace LaidOut

variable {source : Text} {s : TokenStream} {ls : List Lexeme}

/-- The source between the start of one token and the end of another is the text between them. -/
theorem slice?_eq (h : LaidOut source s ls) {a b : Nat} {t u : Token} (hab : a ≤ b)
    (ht : s.token? a = some t) (hu : s.token? b = some u) :
    Text.slice? t.offset (u.offset + Text.utf8Length u.content) source =
      some (s.textBetween a b) := by
  refine Text.slice?_eq_some_iff.2 ⟨mark source ++ Lexeme.spell (ls.take a),
    Lexeme.spell (ls.drop (b + 1)), h.source_eq hab, (h.offset_eq ht).symm, ?_⟩
  rw [h.stop_eq hu, h.offset_eq ht, h.spell_take_add_one hab]
  simp [Nat.add_assoc]

end LaidOut

/-- **Lossless lexing.**  The tokens of every source hold it without loss. -/
theorem lossless_ofSource {source : Text} {s : TokenStream} (h : ofSource source = .ok s) :
    Lossless source s := by
  obtain ⟨ls, hlaid⟩ := exists_laidOut h
  have hnonempty := hlaid.reads.text_ne_nil
  constructor
  case contents =>
    rw [← hlaid.reads.spell_eq, List.flatMap_def, hlaid.tokens, Token.content_place]
    rfl
  case content_ne_nil =>
    intro i t ht
    exact hnonempty _ (List.mem_of_getElem? (hlaid.lexeme_eq ht))
  case first =>
    intro t ht
    rw [hlaid.offset_eq ht]
    unfold mark
    split <;> rfl
  case slice =>
    intro i t ht
    rw [hlaid.slice?_eq (Nat.le_refl i) ht ht, hlaid.textBetween_self ht]
  case next =>
    intro i t u ht hu
    rw [hlaid.stop_eq ht, hlaid.offset_eq hu]
  case last =>
    intro t ht
    have hpos : s.size - 1 < s.size := lt_size_of_token? ht
    have hall : s.size - 1 + 1 = ls.length := by
      rw [← hlaid.size_eq]
      omega
    rw [hlaid.stop_eq ht, hall, List.take_length, hlaid.reads.spell_eq,
      Token.mark_append_withoutMark]
  case size_le =>
    rw [hlaid.size_eq, ← hlaid.reads.spell_eq]
    exact Lexeme.length_le_length_spell hnonempty
  case between =>
    intro a b t u hab ht hu
    have hsize : 0 < s.size := Nat.zero_lt_of_lt (lt_size_of_token? ht)
    refine ⟨s.textBetween a b, ?_, hlaid.slice?_eq hab ht hu⟩
    rw [textBetween?, if_neg (by omega)]

/-- A source with a mark, text outside of the code, letters of two bytes, a doc comment and a
heredoc is cut into 21 tokens without loss. -/
theorem lossless_ofSource_heredoc :
    ∃ s, ofSource "\uFEFFé<?php\n/**\n * é \n */\n$é = (<<<E\nq\nE);".toList = .ok s ∧
      s.size = 21 ∧
      Lossless "\uFEFFé<?php\n/**\n * é \n */\n$é = (<<<E\nq\nE);".toList s := by
  have hsize : (ofSource "\uFEFFé<?php\n/**\n * é \n */\n$é = (<<<E\nq\nE);".toList).map size =
      .ok 21 := by decide +kernel
  obtain ⟨s, hs, hsize⟩ := exists_of_size_ofSource hsize
  exact ⟨s, hs, hsize, lossless_ofSource hs⟩

end TokenStream

end PhpLint

import PhpLint.Proofs.Lexing.ByteSlice
import PhpLint.Proofs.Lexing.Layout

/-!
# Positions of tokens are those of the source

A token's line and column are kept by counting while the source is read.  Here they are read off the
source alone: cut it at the token's offset, count the line feeds in front, and measure the last line
of what is in front, a byte order mark not counted.

Reading on moves a position forward in the order of lines and columns (`precedes_past`), so places
never repeat along a stream, and a token that starts where another one on its line ends is the next
one.
-/

namespace PhpLint

namespace Position

/-- A position comes before another: on an earlier line, or further left on the same line. -/
def Precedes (p q : Position) : Prop := p.line < q.line ∨ p.line = q.line ∧ p.column < q.column

/-- Reading at least one character moves a position forward. -/
theorem precedes_past (p : Position) {t : Text} (ht : t ≠ []) : Precedes p (p.past t) := by
  by_cases hfeed : '\n' ∈ t
  · left
    have hcount : 0 < t.count '\n' := List.count_pos_iff.2 hfeed
    rw [line_past]
    omega
  · right
    have hcount : t.count '\n' = 0 := List.count_eq_zero.2 hfeed
    have hlength : 0 < t.length := List.length_pos_iff.2 ht
    rw [line_past, column_past, if_neg hfeed, Text.lastLine_of_not_mem hfeed]
    omega

end Position

namespace TokenStream

open Token (mark withoutMark)

/-- The tokens of a stream stand on the lines and in the columns of a source. -/
structure Positioned (source : Text) (s : TokenStream) : Prop where
  /-- Line and column are counted in what the source has before the token's offset, the length in
  the token's content. -/
  counted : ∀ i t, s.token? i = some t → ∃ before after,
    Text.splitBytes? t.offset source = some (before, after) ∧
      t.line = 1 + before.count '\n' ∧
      t.column = 1 + (Text.lastLine (withoutMark before)).length ∧
      t.length = t.content.length
  /-- Tokens come in the order of their lines and columns. -/
  increasing : ∀ i j t u, i < j → s.token? i = some t → s.token? j = some u →
    t.line < u.line ∨ t.line = u.line ∧ t.column < u.column
  /-- What starts where a token without a line feed ends is the next token. -/
  adjacent : ∀ i j t u, s.token? i = some t → s.token? j = some u → '\n' ∉ t.content →
    u.line = t.line → u.column = t.endColumn → j = i + 1

namespace LaidOut

variable {source : Text} {s : TokenStream} {ls : List Lexeme}

/-- A stretch with a token in it has some text. -/
theorem textBetween_ne_nil (h : LaidOut source s ls) {i j : Nat} {t : Token} (hij : i ≤ j)
    (ht : s.token? i = some t) : s.textBetween i j ≠ [] := by
  have hl := h.lexeme_eq ht
  have hmem : (⟨t.kind, t.content⟩ : Lexeme) ∈ (ls.take (j + 1)).drop i := by
    apply List.mem_of_getElem? (i := 0)
    rw [List.getElem?_drop, List.getElem?_take_of_lt (by omega)]
    exact hl
  intro hnil
  rw [h.textBetween_eq, Lexeme.spell, List.flatMap_eq_nil_iff] at hnil
  exact h.reads.text_ne_nil _ (List.mem_of_getElem? hl) (hnil _ hmem)

/-- A later token stands at a later position. -/
theorem precedes (h : LaidOut source s ls) {i j : Nat} {t u : Token} (hij : i < j)
    (ht : s.token? i = some t) (hu : s.token? j = some u) :
    Position.Precedes t.position u.position := by
  obtain ⟨k, rfl⟩ : ∃ k, j = k + 1 := ⟨j - 1, by omega⟩
  rw [h.position_past (by omega) ht hu]
  exact Position.precedes_past _ (h.textBetween_ne_nil (by omega) ht)

/-- Lines never decrease along a stream. -/
theorem line_le (h : LaidOut source s ls) {i j : Nat} (hij : i ≤ j) (hj : j < s.size) :
    s.line i ≤ s.line j := by
  obtain ⟨t, ht⟩ := exists_token? (Nat.lt_of_le_of_lt hij hj)
  obtain ⟨u, hu⟩ := exists_token? hj
  rw [line_of_token? ht, line_of_token? hu]
  rcases Nat.lt_or_eq_of_le hij with hlt | rfl
  · rcases h.precedes hlt ht hu with hline | ⟨hline, -⟩
    · exact Nat.le_of_lt hline
    · exact Nat.le_of_eq hline
  · obtain rfl := Option.some.inj (ht.symm.trans hu)
    exact Nat.le_refl _

/-- Behind a token without a line feed, the next one starts on its line, at its end. -/
theorem next_of_not_mem (h : LaidOut source s ls) {i : Nat} {t u : Token}
    (ht : s.token? i = some t) (hu : s.token? (i + 1) = some u) (hfeed : '\n' ∉ t.content) :
    u.line = t.line ∧ u.column = t.endColumn := by
  have hposition := h.position_past (Nat.le_refl i) ht hu
  rw [h.textBetween_self ht] at hposition
  have hline := congrArg Position.line hposition
  have hcolumn := congrArg Position.column hposition
  rw [Position.line_past, List.count_eq_zero.2 hfeed] at hline
  rw [Position.column_past, if_neg hfeed, Text.lastLine_of_not_mem hfeed] at hcolumn
  exact ⟨hline, hcolumn⟩

/-- Where a token without a line feed ends, no other token starts than the next one. -/
theorem eq_succ_of_adjacent (h : LaidOut source s ls) {i j : Nat} {t u : Token}
    (ht : s.token? i = some t) (hu : s.token? j = some u) (hfeed : '\n' ∉ t.content)
    (hline : u.line = t.line) (hcolumn : u.column = t.endColumn) : j = i + 1 := by
  have hcontent : 0 < t.content.length :=
    List.length_pos_iff.2 (h.reads.text_ne_nil _ (List.mem_of_getElem? (h.lexeme_eq ht)))
  have hend : t.endColumn = t.column + t.content.length := rfl
  rcases Nat.lt_trichotomy j (i + 1) with hj | hj | hj
  · -- The other token is this one or an earlier one, and starts before this one ends.
    rcases Nat.lt_succ_iff_lt_or_eq.1 hj with hj | rfl
    · rcases h.precedes hj hu ht with hlt | ⟨-, hlt⟩
      · exact absurd hlt (by simp only [Token.position]; omega)
      · exact absurd hlt (by simp only [Token.position]; omega)
    · obtain rfl := Option.some.inj (ht.symm.trans hu)
      omega
  · exact hj
  · -- The next token starts there already, so a later one starts further on.
    have hnext : i + 1 < s.size := Nat.lt_trans hj (lt_size_of_token? hu)
    have hw : s.token? (i + 1) = some s.tokens[i + 1] := Array.getElem?_eq_getElem hnext
    obtain ⟨hwline, hwcolumn⟩ := h.next_of_not_mem ht hw hfeed
    rcases h.precedes hj hw hu with hlt | ⟨-, hlt⟩
    · exact absurd hlt (by simp only [Token.position]; omega)
    · exact absurd hlt (by simp only [Token.position]; omega)

/-- Cut at a token's offset, the source falls into the mark with the lexemes before the token, and
the token with the lexemes behind it. -/
theorem splitBytes?_offset (h : LaidOut source s ls) {i : Nat} {t : Token}
    (ht : s.token? i = some t) :
    Text.splitBytes? t.offset source = some (mark source ++ Lexeme.spell (ls.take i),
      t.content ++ Lexeme.spell (ls.drop (i + 1))) := by
  have hsource := h.source_eq (Nat.le_refl i)
  rw [h.textBetween_self ht, List.append_assoc _ t.content] at hsource
  exact Text.splitBytes?_eq_some_iff.2 ⟨hsource, (h.offset_eq ht).symm⟩

end LaidOut

/-- **Positions of tokens.**  The tokens of every source stand on its lines and in its columns. -/
theorem positioned_ofSource {source : Text} {s : TokenStream} (h : ofSource source = .ok s) :
    Positioned source s := by
  obtain ⟨ls, hlaid⟩ := exists_laidOut h
  constructor
  case counted =>
    intro i t ht
    have hcut := hlaid.splitBytes?_offset ht
    have hsource := (Text.splitBytes?_eq_some_iff.1 hcut).1
    refine ⟨mark source ++ Lexeme.spell (ls.take i), _, hcut, ?_, ?_, rfl⟩
    · rw [hlaid.line_eq ht, List.count_append, Token.count_mark, Nat.zero_add]
    · rw [hlaid.column_eq ht, Token.withoutMark_append hsource]
  case increasing =>
    intro i j t u hij ht hu
    exact hlaid.precedes hij ht hu
  case adjacent =>
    intro i j t u ht hu hfeed hline hcolumn
    exact hlaid.eq_succ_of_adjacent ht hu hfeed hline hcolumn

/-- A source with a mark, letters of two bytes and a string over two lines. -/
theorem positioned_ofSource_lines :
    ∃ s, ofSource "\uFEFFé<?php\n$é = 'ä\nö' . 1;".toList = .ok s ∧ s.size = 12 ∧
      Positioned "\uFEFFé<?php\n$é = 'ä\nö' . 1;".toList s := by
  have hsize : (ofSource "\uFEFFé<?php\n$é = 'ä\nö' . 1;".toList).map size = .ok 12 := by
    decide +kernel
  obtain ⟨s, hs, hsize⟩ := exists_of_size_ofSource hsize
  exact ⟨s, hs, hsize, positioned_ofSource hs⟩

end TokenStream

end PhpLint

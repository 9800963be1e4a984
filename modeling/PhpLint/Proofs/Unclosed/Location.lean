import PhpLint.Proofs.Lexing.Layout
import PhpLint.Proofs.Unclosed.Scan

/-!
# Where a source breaks off

A source that has no tokens has a place where something starts that it does not close, and the error
names that place: its line and column are those behind the text before it, counted without a byte order
mark.  The text before it is a source with tokens of its own, so nothing before that place is to blame.
-/

namespace PhpLint

open Token (mark withoutMark origin byteOrderMark)

variable {source before rest : Text} {e : LexError}

/-- The first character of text outside of code makes no difference to the fault of a scan. -/
theorem Scan.fault_ofText_html_cons {c : Char} {t : Text} (h : openTagLength? (c :: t) = none)
    (p q : Option Kind) : (ofText .html p (c :: t)).fault = (ofText .html q t).fault := by
  rw [ofText_html h, fault_after]
  exact fault_ofText_drop _ q t

/-- A text that is scanned without a fault is a source with tokens, also if a byte order mark stands in
front of it. -/
theorem Token.exists_ofSource {t : Text} (h : (Scan.ofSource t).fault = none) :
    ∃ ts, ofSource t = .ok ts := by
  have hfault : (Scan.ofSource (withoutMark t)).fault = none := by
    cases t with
    | nil => exact h
    | cons c t =>
      by_cases hc : c = byteOrderMark
      · have hnone : Scan.openTagLength? (c :: t) = none :=
          Scan.openTagLength?_of_ne (by rw [hc]; decide) t
        have hwithout : withoutMark (c :: t) = t := by simp [withoutMark, hc]
        rw [hwithout, Scan.ofSource, ← Scan.fault_ofText_html_cons hnone none none]
        exact h
      · have hwithout : withoutMark (c :: t) = c :: t := by simp [withoutMark, hc]
        rw [hwithout]
        exact h
  rw [ofSource_eq, hfault]
  exact ⟨_, rfl⟩

/-- An error names the place behind the text `before` of a source, where `rest` stands. -/
structure LexError.LocatedAt (source before rest : Text) (e : LexError) : Prop where
  text : withoutMark source = before ++ rest
  line : e.line = 1 + before.count '\n'
  column : e.column = 1 + (Text.lastLine before).length
  /-- What stands before the place has tokens. -/
  alone : ∃ ts, Token.ofSource before = .ok ts
  /-- At the place something starts that is not closed. -/
  unterminated : Unterminated e.fault rest

/-- **Errors are real, and placed where they are.**  A source without tokens has a place where something
starts that it does not close and before which all is well, and the error names this place. -/
theorem Token.locatedAt_of_ofSource (h : Token.ofSource source = .error e) :
    ∃ before rest, e.LocatedAt source before rest := by
  rw [ofSource_eq] at h
  cases hfault : (Scan.ofSource (withoutMark source)).fault with
  | none =>
    rw [hfault] at h
    cases h
  | some f =>
    rw [hfault] at h
    obtain rfl := Except.error.inj h
    obtain ⟨front, c, rest, htext, hbreaks⟩ := Scan.exists_breaksAt hfault
    obtain ⟨p, hread⟩ := hbreaks.stop
    have hspell : Lexeme.spell (Scan.ofSource (withoutMark source)).lexemes = front := by
      rw [htext]
      exact (congrArg Lexeme.spell hbreaks.lexemes).trans
        (Scan.reads_ofText hbreaks.alone).spell_eq
    refine ⟨front, c :: rest, htext, ?_, ?_, exists_ofSource hbreaks.alone,
      Scan.unterminated_of_read hread⟩
    · dsimp only
      rw [hspell, Position.line_past]
      rfl
    · dsimp only
      rw [hspell, Position.column_past]
      split <;> rfl

/-- Behind a byte order mark, a string and a doc comment, a heredoc whose marker stands in the text only
as part of a longer word. -/
def openHeredoc : Text := "\uFEFFé<?php 'a';\n/** b */<<<C\n  CD\n".toList

/-- The source breaks off on its second line, where the heredoc starts. -/
theorem Token.locatedAt_of_ofSource_heredoc :
    ofSource openHeredoc = .error ⟨.unterminatedHeredoc, 2, 9⟩ ∧
      ∃ before rest, LexError.LocatedAt openHeredoc before rest ⟨.unterminatedHeredoc, 2, 9⟩ := by
  have herror : ofSource openHeredoc = .error ⟨.unterminatedHeredoc, 2, 9⟩ := by decide +kernel
  exact ⟨herror, locatedAt_of_ofSource herror⟩

end PhpLint

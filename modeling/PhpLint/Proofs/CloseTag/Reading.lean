import Mathlib.Data.List.Find
import PhpLint.Proofs.Lexing.Literal
import PhpLint.Proofs.Lexing.Reading

/-!
# Readings in front of a closing tag

What stands at the front of code is read by the readers of its construct, and each of them either
stops before a question mark, stops before a closing tag, or searches for an end that may lie behind
it.  Only the last sort can depend on what follows the tag, and only when it goes past the tag.  So a
reading is **steady** (`Steady`): where it takes no more than what stands in front of the tag, it is
the same reading whatever follows.
-/

namespace PhpLint

variable {w y y' : Text} {c : Char}

namespace Text

/-- Whether a text stands in front is decided by as many characters. -/
theorem startsWith_append {start t : Text} (h : start.length ≤ t.length) (y : Text) :
    startsWith start (t ++ y) = startsWith start t := by
  rw [Bool.eq_iff_iff, startsWith_iff, startsWith_iff]
  exact ⟨fun hstart => List.prefix_of_prefix_length_le hstart (List.prefix_append t y) h,
    fun hstart => hstart.trans (List.prefix_append t y)⟩

end Text

/-- No operator is longer than a character and a closing tag. -/
theorem Operator.read_tag (c : Char) (w y : Text) :
    read c (w ++ '?' :: '>' :: y) = read c (w ++ ['?', '>']) := by
  have htable : ∀ entry ∈ longer, entry.1.length ≤ 3 := by decide
  have hstart : ∀ entry ∈ longer, Text.startsWith entry.1 (c :: (w ++ '?' :: '>' :: y)) =
      Text.startsWith entry.1 (c :: (w ++ ['?', '>'])) := by
    intro entry hentry
    have hlength : entry.1.length ≤ (c :: (w ++ ['?', '>'])).length :=
      Nat.le_trans (htable entry hentry) (by simp)
    simpa using Text.startsWith_append hlength y
  unfold read
  rw [List.find?_congr hstart]

namespace Scan

/-! ## Steady readings -/

/-- A reading takes no more than `n` characters behind the first. -/
def EndsBy (n : Nat) : Reading → Prop
  | .one _ more => more ≤ n
  | .docComment body => body.length + 4 ≤ n
  | .fault _ => False

/-- What ends by some place ends by every later one. -/
theorem EndsBy.mono {m n : Nat} {r : Reading} (h : EndsBy m r) (hmn : m ≤ n) : EndsBy n r := by
  cases r with
  | one k more => exact Nat.le_trans h hmn
  | docComment body => exact Nat.le_trans h hmn
  | fault f => exact h.elim

/-- Readings of which the second is the first, if that one takes no more than `n` characters. -/
def Steady (n : Nat) (r r' : Reading) : Prop := EndsBy n r → r' = r

namespace Steady

variable {n : Nat} {r r' : Reading}

theorem refl (n : Nat) (r : Reading) : Steady n r r := fun _ => rfl

/-- A choice between steady readings is steady, as long as it is made the same way. -/
theorem ite {p q : Prop} [Decidable p] [Decidable q] {r₁ r₁' r₂ r₂' : Reading} (hpq : p ↔ q)
    (hpos : p → Steady n r₁ r₁') (hneg : ¬p → Steady n r₂ r₂') :
    Steady n (if p then r₁ else r₂) (if q then r₁' else r₂') := by
  by_cases h : p
  · rw [if_pos h, if_pos (hpq.1 h)]
    exact hpos h
  · rw [if_neg h, if_neg fun hq => h (hpq.2 hq)]
    exact hneg h

end Steady

/-- A comment that ends before some place is read up to its end, whatever comes behind that place. -/
theorem steady_untilClose {f : Text → Reading} {m : Nat} {fault : Fault}
    (hf : ∀ body, EndsBy w.length (f body) → body.length + 2 + m ≤ w.length) {t t' : Text}
    (ht : w <+: t) (ht' : w <+: t') :
    Steady w.length
      (match Comment.untilClose (t.drop m) with
        | some body => f body
        | none => .fault fault)
      (match Comment.untilClose (t'.drop m) with
        | some body => f body
        | none => .fault fault) := by
  obtain ⟨z, rfl⟩ := ht
  obtain ⟨z', rfl⟩ := ht'
  intro hends
  cases hclose : Comment.untilClose ((w ++ z).drop m) with
  | none =>
    rw [hclose] at hends
    exact hends.elim
  | some body =>
    rw [hclose] at hends
    have hlength := hf body hends
    have hdrop (z : Text) : (w ++ z).drop m = w.drop m ++ z :=
      List.drop_append_of_le_length (by omega)
    rw [hdrop] at hclose
    have hfront := Comment.untilClose_append_iff.1 ⟨hclose, by rw [List.length_drop]; omega⟩
    rw [hdrop, (Comment.untilClose_append_iff.2 hfront).1]

/-- What stands in front of a closing tag and does not reach it is read without a look behind it. -/
theorem steady_read (previous : Option Kind) (c : Char) (w y y' : Text) :
    Steady w.length (read previous c (w ++ '?' :: '>' :: y))
      (read previous c (w ++ '?' :: '>' :: y')) := by
  have hmark : IsStop '?' := by decide
  have hname (z : Text) : (w ++ '?' :: z).takeWhile isNameChar = w.takeWhile isNameChar :=
    Text.takeWhile_stop (by decide) w z
  have hnumber (z : Text) : Number.read (c :: (w ++ '?' :: z)) = Number.read (c :: w) :=
    Number.read_stop hmark (c :: w) z
  have hline (y : Text) : Comment.lineTail (w ++ '?' :: '>' :: y) = Comment.lineTail w := by
    rw [Comment.lineTail, Comment.untilLineEnd_tag, Comment.lineTail]
  have hclose (y : Text) :
      ((w ++ '?' :: '>' :: y).drop 1).head? = ((w ++ ['?', '>']).drop 1).head? := by
    cases w with
    | nil => rfl
    | cons d w =>
      rw [List.cons_append, List.cons_append, List.drop_succ_cons, List.drop_succ_cons,
        List.drop_zero, List.drop_zero, Text.head?_append_cons, Text.head?_append_cons]
  dsimp only [read]
  rw [Operator.read_tag c w y, Operator.read_tag c w y']
  simp only [Text.head?_append_cons, whitespaceTail_stop hmark, hclose, hline,
    Comment.opensDoc_stop hmark, hname, Word.read_stop hmark, hnumber]
  refine .ite .rfl (fun _ => .refl _ _) fun _ => ?_
  refine .ite .rfl (fun _ => .refl _ _) fun _ => ?_
  refine .ite .rfl (fun _ => .refl _ _) fun _ => ?_
  refine .ite .rfl (fun _ => .refl _ _) fun _ => ?_
  refine .ite .rfl (fun _ => .ite .rfl (fun _ => ?_) fun _ => ?_) fun _ => ?_
  · exact steady_untilClose (fun body hends => hends) (List.prefix_append ..) (List.prefix_append ..)
  · exact steady_untilClose (fun body hends => hends) (List.prefix_append ..) (List.prefix_append ..)
  refine .ite .rfl (fun _ => .refl _ _) fun _ => ?_
  refine .ite .rfl (fun _ => .refl _ _) fun _ => ?_
  refine .ite .rfl (fun _ => .refl _ _) fun _ => ?_
  refine .ite .rfl (fun _ => ?_) fun _ => ?_
  · intro hends
    cases hclose : Literal.quotedTail? c (w ++ '?' :: '>' :: y) with
    | none =>
      rw [hclose] at hends
      exact hends.elim
    | some more =>
      rw [hclose] at hends
      have hfront := Literal.quotedTail?_append_iff.1 ⟨hclose, hends⟩
      rw [(Literal.quotedTail?_append_iff.2 hfront).1]
  · cases c == '<' with
    | false => exact .refl _ _
    | true =>
      intro hends
      simp only [if_true] at hends ⊢
      cases houtcome : Literal.heredoc? (w ++ '?' :: '>' :: y) with
      | none =>
        have hnone := Literal.heredoc?_question_eq_none_iff.1 houtcome
        rw [Literal.heredoc?_question_eq_none_iff.2 hnone]
      | some outcome =>
        rw [houtcome] at hends
        cases outcome with
        | error fault => exact hends.elim
        | ok more =>
          have hfront := (Literal.heredoc?_stop_iff hmark).1 ⟨houtcome, hends⟩
          rw [((Literal.heredoc?_stop_iff hmark).2 hfront).1]

end Scan

end PhpLint

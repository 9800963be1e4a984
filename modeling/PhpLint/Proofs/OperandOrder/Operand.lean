import Mathlib.Data.List.Basic
import PhpLint.Lexeme
import PhpLint.Sniff.OperandOrder

/-!
# Operands of a comparison

An operand is a row of significant tokens.  It is a **lone literal** (`IsLone`) when it is one literal,
perhaps with a sign, and nothing else.

Of a longer operand, what stands at an edge may look like a lone literal: it is **loose** at its end
when it ends in a literal behind a token that ties nothing (`LooseAtEnd`), and loose at its start when
it starts with a literal in front of such a token (`LooseAtStart`).  No operand is loose that is put
together of literals, variables, names, calls, accesses, casts and operators, as long as no prefix,
cast, call or postfix stands right at a lone literal, and no sign of a number behind a postfix
(`Operand.hasTiedEdges`).
-/

namespace PhpLint.OperandOrder

/-- The lexeme ties a literal to its neighbour. -/
def ties (l : Lexeme) : Bool :=
  l.kind == .doubleColon || l.kind == .arrow ||
    l.kind == .operator && bindingOperators.contains l.text

/-- The lexeme is a sign. -/
def signs (l : Lexeme) : Bool := l.kind == .operator && (l.text == ['-'] || l.text == ['+'])

/-- A token behind a literal that makes more of it: a binding operator or an index access. -/
def tiesBack (l : Lexeme) : Bool := ties l || l.kind == .opens .square

/-- One literal, perhaps with a sign. -/
def IsLone (ls : List Lexeme) : Prop :=
  (∃ l, ls = [l] ∧ isLiteral l.kind = true) ∨
    ∃ sign n, ls = [sign, n] ∧ signs sign = true ∧ isNumber n.kind = true

/-- A literal at the end, perhaps with a sign, is not tied to the token in front of it. -/
def LooseAtEnd (ls : List Lexeme) : Prop :=
  (∃ front x l, ls = front ++ [x, l] ∧ isLiteral l.kind = true ∧ ties x = false) ∨
    ∃ front x sign n, ls = front ++ [x, sign, n] ∧ signs sign = true ∧ isNumber n.kind = true ∧
      endsOperand x.kind = false ∧ ties x = false

/-- A literal at the start, perhaps with a sign, is not tied to the token behind it. -/
def LooseAtStart (ls : List Lexeme) : Prop :=
  (∃ l x rest, ls = l :: x :: rest ∧ isLiteral l.kind = true ∧ tiesBack x = false) ∨
    ∃ sign n x rest, ls = sign :: n :: x :: rest ∧ signs sign = true ∧ isNumber n.kind = true ∧
      tiesBack x = false

/-- A sign ties. -/
theorem ties_of_signs {x : Lexeme} (h : signs x = true) : ties x = true := by
  rw [signs, Bool.and_eq_true, Bool.or_eq_true, beq_iff_eq, beq_iff_eq,
    beq_iff_eq] at h
  obtain ⟨hkind, htext⟩ := h
  rcases htext with htext | htext
  · rw [ties, hkind, htext]
    rfl
  · rw [ties, hkind, htext]
    rfl

theorem isLiteral_of_isNumber {k : Kind} (h : isNumber k = true) : isLiteral k = true := by
  cases k <;> first | rfl | cases h

theorem isLone_singleton {l : Lexeme} (h : isLiteral l.kind = true) : IsLone [l] := .inl ⟨l, rfl, h⟩

/-- One token is lone when it is a literal. -/
theorem isLone_singleton_iff {l : Lexeme} : IsLone [l] ↔ isLiteral l.kind = true := by
  constructor
  · rintro (⟨x, heq, hx⟩ | ⟨sign, n, heq, -⟩)
    · rwa [(List.cons.inj heq).1]
    · simp at heq
  · exact isLone_singleton

/-- Two tokens or more are lone when they are a sign and a number. -/
theorem isLone_cons_cons_iff {x y : Lexeme} {ls : List Lexeme} :
    IsLone (x :: y :: ls) ↔ ls = [] ∧ signs x = true ∧ isNumber y.kind = true := by
  constructor
  · rintro (⟨l, heq, -⟩ | ⟨sign, n, heq, hs, hn⟩)
    · simp at heq
    · simp only [List.cons.injEq] at heq
      obtain ⟨rfl, rfl, rfl⟩ := heq
      exact ⟨rfl, hs, hn⟩
  · rintro ⟨rfl, hs, hn⟩
    exact .inr ⟨x, y, rfl, hs, hn⟩

/-! ## Edges of what is put together -/

/-- The last element of a row lies in its last part, if that part has any. -/
theorem exists_of_append_eq_concat {α : Type} {front ls ys : List α} {x a : α}
    (h : front ++ x :: ls = ys ++ [a]) :
    (ls = [] ∧ x = a ∧ front = ys) ∨ ∃ zs, ls = zs ++ [a] ∧ front ++ x :: zs = ys := by
  rcases List.eq_nil_or_concat' ls with rfl | ⟨zs, z, rfl⟩
  · obtain ⟨rfl, hx⟩ := List.append_inj' h rfl
    exact .inl ⟨rfl, (List.cons.inj hx).1, rfl⟩
  · rw [← List.cons_append, ← List.append_assoc] at h
    obtain ⟨rfl, hz⟩ := List.append_inj' h rfl
    exact .inr ⟨zs, by rw [(List.cons.inj hz).1], rfl⟩

variable {ls front back : List Lexeme} {x : Lexeme}

/-- Behind a token that ties it, and behind any token if it is not lone, an operand is loose at its end
only if it was so by itself. -/
theorem not_looseAtEnd_append (front : List Lexeme) (hne : ls ≠ []) (hloose : ¬LooseAtEnd ls)
    (hx : ties x = true ∨ ¬IsLone ls)
    (hsign : signs x = true → IsLone ls → ∀ ys y, front = ys ++ [y] → endsOperand y.kind = true) :
    ¬LooseAtEnd (front ++ x :: ls) := by
  have hkept (hlone : IsLone ls) (htied : ties x = false) : False := by
    rcases hx with hx | hx
    · rw [hx] at htied
      cases htied
    · exact hx hlone
  -- From the end on, token by token, until the front is reached.
  rintro (⟨ys, y, l, heq, hl, hy⟩ | ⟨ys, y, sign, n, heq, hs, hn, hends, hy⟩)
  · rw [List.append_cons ys] at heq
    obtain ⟨hnil, -, -⟩ | ⟨zs, rfl, hzs⟩ := exists_of_append_eq_concat heq
    · exact hne hnil
    obtain ⟨rfl, rfl, -⟩ | ⟨zs, rfl, -⟩ := exists_of_append_eq_concat hzs
    · exact hkept (isLone_singleton hl) hy
    · exact hloose (.inl ⟨zs, y, l, List.append_assoc zs [y] [l], hl, hy⟩)
  · rw [List.append_cons ys, List.append_cons (ys ++ [y])] at heq
    obtain ⟨hnil, -, -⟩ | ⟨zs, rfl, hzs⟩ := exists_of_append_eq_concat heq
    · exact hne hnil
    obtain ⟨rfl, rfl, rfl⟩ | ⟨zs, rfl, hzs'⟩ := exists_of_append_eq_concat hzs
    · rw [hsign hs (isLone_singleton (isLiteral_of_isNumber hn)) ys y rfl] at hends
      cases hends
    obtain ⟨rfl, rfl, -⟩ | ⟨zs, rfl, -⟩ := exists_of_append_eq_concat hzs'
    · exact hkept (.inr ⟨sign, n, rfl, hs, hn⟩) hy
    · exact hloose (.inr ⟨zs, y, sign, n, by rw [List.append_assoc, List.append_assoc]; rfl, hs, hn,
        hends, hy⟩)

/-- In front of a token that ties it, and in front of any token if it is not lone, an operand is loose
at its start only if it was so by itself. -/
theorem not_looseAtStart_append (hne : ls ≠ []) (hloose : ¬LooseAtStart ls)
    (hsign : ∀ l, ls = [l] → signs l = false) (hx : tiesBack x = true ∨ ¬IsLone ls) :
    ¬LooseAtStart (ls ++ x :: back) := by
  have hkept (hlone : IsLone ls) (htied : tiesBack x = false) : False := by
    rcases hx with hx | hx
    · rw [hx] at htied
      cases htied
    · exact hx hlone
  rintro (⟨l, y, ys, heq, hl, hy⟩ | ⟨sign, n, y, ys, heq, hs, hn, hy⟩)
  · rcases ls with - | ⟨a, - | ⟨b, zs⟩⟩
    · exact hne rfl
    · simp only [List.cons_append, List.nil_append, List.cons.injEq] at heq
      obtain ⟨rfl, rfl, -⟩ := heq
      exact hkept (isLone_singleton hl) hy
    · simp only [List.cons_append, List.cons.injEq] at heq
      obtain ⟨rfl, rfl, -⟩ := heq
      exact hloose (.inl ⟨a, b, zs, rfl, hl, hy⟩)
  · rcases ls with - | ⟨a, - | ⟨b, - | ⟨c, zs⟩⟩⟩
    · exact hne rfl
    · simp only [List.cons_append, List.nil_append, List.cons.injEq] at heq
      rw [← heq.1, hsign a rfl] at hs
      cases hs
    · simp only [List.cons_append, List.nil_append, List.cons.injEq] at heq
      obtain ⟨rfl, rfl, rfl, -⟩ := heq
      exact hkept (.inr ⟨a, b, rfl, hs, hn⟩) hy
    · simp only [List.cons_append, List.cons.injEq] at heq
      obtain ⟨rfl, rfl, rfl, -⟩ := heq
      exact hloose (.inr ⟨a, b, c, zs, rfl, hs, hn, hy⟩)

/-- Operands put together of values and operators. -/
inductive Operand : List Lexeme → Prop
  /-- A literal, perhaps with a sign. -/
  | lone {ls : List Lexeme} (h : IsLone ls) : Operand ls
  /-- A variable or a name. -/
  | value {x : Lexeme} (hliteral : isLiteral x.kind = false) (hoperator : x.kind ≠ .operator) :
      Operand [x]
  /-- An operand in brackets. -/
  | group {inner : List Lexeme} {o c : Lexeme} {d : Delimiter} (ho : o.kind = .opens d)
      (hc : c.kind = .closes d) : Operand (o :: (inner ++ [c]))
  /-- A sign, or a prefix operator in front of more than a lone literal. -/
  | prefixed {ls : List Lexeme} {p : Lexeme} (h : Operand ls) (hp : p.kind = .operator)
      (hlone : ties p = true ∨ ¬IsLone ls) : Operand (p :: ls)
  /-- A cast, in front of more than a lone literal. -/
  | cast {ls : List Lexeme} {o t c : Lexeme} (h : Operand ls) (ho : o.kind = .opens .round)
      (hc : c.kind = .closes .round) (hlone : ¬IsLone ls) : Operand (o :: t :: c :: ls)
  /-- A postfix operator, behind more than a lone literal. -/
  | postfixed {ls : List Lexeme} {p : Lexeme} (h : Operand ls) (hp : p.kind = .operator)
      (hlone : ¬IsLone ls) : Operand (ls ++ [p])
  /-- An index access, or a call of more than a lone literal. -/
  | bracketed {ls inner : List Lexeme} {o c : Lexeme} {d : Delimiter} (h : Operand ls)
      (ho : o.kind = .opens d) (hc : c.kind = .closes d) (hlone : d = .square ∨ ¬IsLone ls) :
      Operand (ls ++ o :: (inner ++ [c]))
  /-- Two operands with a binding operator or a member access between them, a sign in front of a lone
  literal not behind a postfix operator. -/
  | joined {left right : List Lexeme} {x : Lexeme} (hleft : Operand left) (hright : Operand right)
      (hx : ties x = true)
      (hsign : signs x = true → IsLone right → ∀ ys y, left = ys ++ [y] → endsOperand y.kind = true) :
      Operand (left ++ x :: right)

/-- What is kept along the way an operand is put together. -/
structure HasTiedEdges (ls : List Lexeme) : Prop where
  nonempty : ls ≠ []
  atEnd : ¬LooseAtEnd ls
  atStart : ¬LooseAtStart ls
  notSign : ∀ l, ls = [l] → signs l = false

/-- A sign is no literal. -/
theorem isLiteral_of_signs (h : signs x = true) : isLiteral x.kind = false := by
  rw [signs, Bool.and_eq_true, beq_iff_eq] at h
  rw [h.1]
  rfl

theorem signs_of_kind_ne (h : x.kind ≠ .operator) : signs x = false := by
  rw [signs, beq_false_of_ne h, Bool.false_and]

/-- What ends in no literal is not loose there. -/
theorem not_looseAtEnd_concat (ls : List Lexeme) (hx : isLiteral x.kind = false) :
    ¬LooseAtEnd (ls ++ [x]) := by
  rintro (⟨ys, y, l, heq, hl, -⟩ | ⟨ys, y, sign, n, heq, -, hn, -⟩)
  · rw [List.append_cons ys] at heq
    rw [← (List.cons.inj (List.append_inj' heq rfl).2).1, hx] at hl
    cases hl
  · rw [List.append_cons ys, List.append_cons (ys ++ [y])] at heq
    replace hn := isLiteral_of_isNumber hn
    rw [← (List.cons.inj (List.append_inj' heq rfl).2).1, hx] at hn
    cases hn

/-- What starts with no literal and no sign is not loose there. -/
theorem not_looseAtStart_cons (hx : isLiteral x.kind = false) (hsign : signs x = false) :
    ¬LooseAtStart (x :: ls) := by
  rintro (⟨l, y, ys, heq, hl, -⟩ | ⟨sign, n, y, ys, heq, hs, -⟩)
  · rw [← (List.cons.inj heq).1, hx] at hl
    cases hl
  · rw [← (List.cons.inj heq).1, hsign] at hs
    cases hs

/-- One token is not loose at its end. -/
theorem not_looseAtEnd_singleton (l : Lexeme) : ¬LooseAtEnd [l] := by
  rintro (⟨ys, y, z, heq, -⟩ | ⟨ys, y, z, w, heq, -⟩)
  · rcases ys with - | ⟨a, as⟩ <;> simp at heq
  · rcases ys with - | ⟨a, as⟩ <;> simp at heq

/-- One token is not loose at its start. -/
theorem not_looseAtStart_singleton (l : Lexeme) : ¬LooseAtStart [l] := by
  rintro (⟨y, z, ys, heq, -⟩ | ⟨y, z, w, ys, heq, -⟩)
  · simp at heq
  · simp at heq

theorem hasTiedEdges_singleton (hsign : signs x = false) : HasTiedEdges [x] :=
  ⟨List.cons_ne_nil _ _, not_looseAtEnd_singleton x, not_looseAtStart_singleton x,
    fun l hl => by rw [← (List.cons.inj hl).1, hsign]⟩

/-- A lone literal has tied edges. -/
theorem hasTiedEdges_of_isLone (h : IsLone ls) : HasTiedEdges ls := by
  rcases h with ⟨l, rfl, hl⟩ | ⟨sign, n, rfl, hs, hn⟩
  · refine hasTiedEdges_singleton (signs_of_kind_ne ?_)
    rintro hkind
    rw [hkind] at hl
    cases hl
  · refine ⟨List.cons_ne_nil _ _, ?_, ?_, fun l hl => by simp at hl⟩
    · exact not_looseAtEnd_append [] (List.cons_ne_nil _ _) (not_looseAtEnd_singleton n)
        (.inl (ties_of_signs hs)) fun _ _ ys y hnil => by simp at hnil
    · rintro (⟨l, y, ys, heq, hl, -⟩ | ⟨s, m, y, ys, heq, -⟩)
      · rw [← (List.cons.inj heq).1, isLiteral_of_signs hs] at hl
        cases hl
      · simp at heq

/-- Two parts, neither of them empty, are more than one token. -/
theorem append_cons_ne_singleton {l : Lexeme} (hne : ls ≠ []) : ls ++ x :: back ≠ [l] := by
  intro h
  rcases List.append_eq_singleton_iff.1 h with ⟨hnil, -⟩ | ⟨-, hnil⟩
  · exact hne hnil
  · cases hnil

/-- Along the way an operand is put together its edges stay tied. -/
theorem Operand.hasTiedEdges (h : Operand ls) : HasTiedEdges ls := by
  induction h with
  | lone h => exact hasTiedEdges_of_isLone h
  | value hliteral hoperator => exact hasTiedEdges_singleton (signs_of_kind_ne hoperator)
  | @group inner o c d ho hc =>
    have hstart : isLiteral o.kind = false := by rw [ho]; rfl
    have hend : isLiteral c.kind = false := by rw [hc]; rfl
    have hsign : signs o = false := signs_of_kind_ne (by rw [ho]; exact Kind.noConfusion)
    exact ⟨List.cons_ne_nil _ _, not_looseAtEnd_concat (o :: inner) hend,
      not_looseAtStart_cons hstart hsign, fun l hl => by simp at hl⟩
  | @prefixed ls p _ hp hlone ih =>
    refine ⟨List.cons_ne_nil _ _, ?_, ?_, fun l hl => absurd (List.cons.inj hl).2 ih.nonempty⟩
    · exact not_looseAtEnd_append [] ih.nonempty ih.atEnd hlone
        fun _ _ ys y hnil => by simp at hnil
    · rintro (⟨l, y, ys, heq, hl, -⟩ | ⟨s, m, y, ys, heq, -, hm, hy⟩)
      · rw [← (List.cons.inj heq).1, hp] at hl
        cases hl
      · exact ih.atStart (.inl ⟨m, y, ys, (List.cons.inj heq).2, isLiteral_of_isNumber hm, hy⟩)
  | @cast ls o t c _ ho hc hlone ih =>
    have hstart : isLiteral o.kind = false := by rw [ho]; rfl
    have hsign : signs o = false := signs_of_kind_ne (by rw [ho]; exact Kind.noConfusion)
    refine ⟨List.cons_ne_nil _ _, ?_, not_looseAtStart_cons hstart hsign, fun l hl => by simp at hl⟩
    exact not_looseAtEnd_append [o, t] ih.nonempty ih.atEnd (.inr hlone)
      fun _ hlone' => absurd hlone' hlone
  | @postfixed ls p _ hp hlone ih =>
    have hend : isLiteral p.kind = false := by rw [hp]; rfl
    refine ⟨List.append_ne_nil_of_right_ne_nil _ (List.cons_ne_nil _ _), not_looseAtEnd_concat ls hend,
      not_looseAtStart_append ih.nonempty ih.atStart ih.notSign (.inr hlone),
      fun l hl => absurd hl (append_cons_ne_singleton ih.nonempty)⟩
  | @bracketed ls inner o c d _ ho hc hlone ih =>
    have hend : isLiteral c.kind = false := by rw [hc]; rfl
    have hback : tiesBack o = true ∨ ¬IsLone ls := by
      rcases hlone with rfl | hlone
      · exact .inl (by rw [tiesBack, ho, beq_self_eq_true, Bool.or_true])
      · exact .inr hlone
    refine ⟨List.append_ne_nil_of_right_ne_nil _ (List.cons_ne_nil _ _), ?_,
      not_looseAtStart_append ih.nonempty ih.atStart ih.notSign hback,
      fun l hl => absurd hl (append_cons_ne_singleton ih.nonempty)⟩
    rw [← List.cons_append, ← List.append_assoc]
    exact not_looseAtEnd_concat (ls ++ o :: inner) hend
  | @joined left right x _ _ hx hsign ihleft ihright =>
    refine ⟨List.append_ne_nil_of_right_ne_nil _ (List.cons_ne_nil _ _),
      not_looseAtEnd_append left ihright.nonempty ihright.atEnd (.inl hx) hsign,
      not_looseAtStart_append ihleft.nonempty ihleft.atStart ihleft.notSign
        (.inl (by rw [tiesBack, hx, Bool.true_or])),
      fun l hl => absurd hl (append_cons_ne_singleton ihleft.nonempty)⟩

end PhpLint.OperandOrder

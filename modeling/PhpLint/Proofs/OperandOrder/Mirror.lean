import PhpLint.Proofs.Layout.Code
import PhpLint.Proofs.LineEnds.Finding
import PhpLint.Proofs.OperandOrder.Operand

/-!
# The two styles mirror each other

The operand before a comparison is read backward and the one behind it forward, by different code.
Between parentheses both answer that an operand is a lone literal when it is one, and besides when it
is loose at the edge they come from (`leftIsLiteral_iff`, `rightIsLiteral_iff`).

So an operand that is loose at both edges or at neither is classified alike from both sides, and with
two such operands the style `require` reports one order exactly when `disallow` reports the other
(`styles_mirror`).
-/

namespace PhpLint

namespace TokenStream

/-- The significant token at an index, with the code before and behind it. -/
structure StandsIn (s : TokenStream) (i : Nat) (before : List Lexeme) (l : Lexeme)
    (after : List Lexeme) : Prop where
  significant : s.has i Kind.isSignificant = true
  code : s.code = before ++ l :: after
  ordinal : s.ordinal i = before.length

namespace StandsIn

variable {s : TokenStream} {i : Nat} {before after : List Lexeme} {l x : Lexeme}

/-- The token at the index has the kind and the text of the lexeme. -/
theorem exists_token? (h : StandsIn s i before l after) :
    ∃ t, s.token? i = some t ∧ t.kind = l.kind ∧ t.content = l.text := by
  obtain ⟨t, ht, hkind⟩ := exists_token?_of_has h.significant
  have hlexeme := getElem?_code ht hkind
  rw [h.ordinal, h.code, List.getElem?_append_right (Nat.le_refl _), Nat.sub_self,
    List.getElem?_cons_zero] at hlexeme
  obtain rfl := Option.some.inj hlexeme
  exact ⟨t, ht, rfl, rfl⟩

theorem kind?_eq (h : StandsIn s i before l after) : s.kind? i = some l.kind := by
  obtain ⟨t, ht, hkind, -⟩ := h.exists_token?
  rw [kind?_of_token? ht, hkind]

/-- The content at the index is the text of the lexeme. -/
theorem content_eq (h : StandsIn s i before l after) : s.content i = l.text := by
  obtain ⟨t, ht, -, hcontent⟩ := h.exists_token?
  rw [content_of_token? ht, hcontent]

/-- What is asked of the kind is asked of the lexeme's. -/
theorem has_eq (h : StandsIn s i before l after) (p : Kind → Bool) : s.has i p = p l.kind := by
  rw [has, h.kind?_eq, Option.any_some]

theorem isAt_eq (h : StandsIn s i before l after) (k : Kind) : s.isAt i k = (l.kind == k) := by
  rw [isAt, h.kind?_eq]
  rfl

/-- One step back in the code. -/
theorem exists_previous (h : StandsIn s i (before ++ [x]) l after) :
    ∃ j, s.previousSignificant i = some j ∧ StandsIn s j before x (l :: after) := by
  have hordinal : s.ordinal i = before.length + 1 := by rw [h.ordinal, List.length_append]; rfl
  obtain ⟨j, hj, heq⟩ := exists_ordinal_eq (s := s) (j := i) (n := before.length) (by omega)
  refine ⟨j, previousSignificant_eq_some_iff_ordinal.2 ⟨hj, by omega⟩, hj, ?_, heq⟩
  rw [h.code, List.append_assoc]
  rfl

/-- One step ahead in the code. -/
theorem exists_next (h : StandsIn s i before l (x :: after)) :
    ∃ j, s.nextSignificant i = some j ∧ StandsIn s j (before ++ [l]) x after := by
  have hlength : s.ordinal s.size = before.length + (after.length + 2) := by
    rw [ordinal_size, h.code, List.length_append, List.length_cons, List.length_cons]
  obtain ⟨j, hj, heq⟩ := exists_ordinal_eq (s := s) (j := s.size) (n := before.length + 1) (by omega)
  refine ⟨j, (nextSignificant_eq_some_iff_ordinal h.significant).2 ⟨hj, by rw [heq, h.ordinal]⟩, hj, ?_,
    ?_⟩
  · rw [h.code, List.append_assoc]
    rfl
  · rw [heq, List.length_append]
    rfl

end StandsIn

end TokenStream

namespace OperandOrder

open TokenStream (StandsIn)

variable {s : TokenStream} {i : Nat} {before after : List Lexeme} {x y l op sign n : Lexeme}

theorem binds_eq (h : StandsIn s i before l after) : binds s i = ties l := by
  rw [binds, h.isAt_eq, h.isAt_eq, h.isAt_eq, h.content_eq]
  rfl

/-- Whether a token is a sign is told by its lexeme. -/
theorem isSign_eq (h : StandsIn s i before l after) : isSign s i = signs l := by
  rw [isSign, h.isAt_eq, h.content_eq]
  rfl

/-! ## The operand before the operator -/

/-- A literal that is no number behind a sign. -/
theorem leftIsLiteral_plain (h : StandsIn s i (before ++ [x, l]) op after)
    (hplain : (signs x && isNumber l.kind) = false) :
    leftIsLiteral s i = (isLiteral l.kind && !ties x) := by
  rw [List.append_cons] at h
  obtain ⟨literal, hprevious, hliteral⟩ := h.exists_previous
  obtain ⟨front, hprevious', hfront⟩ := hliteral.exists_previous
  rw [leftIsLiteral, hprevious]
  dsimp only
  rw [hprevious', hliteral.has_eq, hliteral.has_eq]
  dsimp only
  rw [isSign_eq hfront, binds_eq hfront, hplain]
  cases isLiteral l.kind <;> rfl

/-- A number behind a sign. -/
theorem leftIsLiteral_signed (h : StandsIn s i (before ++ [y, sign, n]) op after)
    (hsign : signs sign = true) (hn : isNumber n.kind = true) :
    leftIsLiteral s i = (!endsOperand y.kind && !ties y) := by
  rw [List.append_cons, List.append_cons] at h
  obtain ⟨literal, hprevious, hliteral⟩ := h.exists_previous
  obtain ⟨front, hprevious', hfront⟩ := hliteral.exists_previous
  obtain ⟨further, hprevious'', hfurther⟩ := hfront.exists_previous
  rw [leftIsLiteral, hprevious]
  dsimp only
  rw [hprevious', hliteral.has_eq, hliteral.has_eq, isLiteral_of_isNumber hn]
  dsimp only
  rw [isSign_eq hfront, hsign, hn, hprevious'']
  dsimp only
  rw [hfurther.has_eq, binds_eq hfurther]
  rfl

/-! ## The operand behind the operator -/

/-- A literal without a sign. -/
theorem rightIsLiteral_plain (h : StandsIn s i before op (l :: x :: after)) (hplain : signs l = false) :
    rightIsLiteral s i = (isLiteral l.kind && !tiesBack x) := by
  obtain ⟨literal, hnext, hliteral⟩ := h.exists_next
  obtain ⟨behind, hnext', hbehind⟩ := hliteral.exists_next
  have hfound : literalAfter? s i = some literal := by
    rw [literalAfter?, hnext, Option.bind_some, isSign_eq hliteral, hplain, if_neg Bool.false_ne_true]
  rw [rightIsLiteral_eq, hfound]
  dsimp only
  rw [hliteral.has_eq, hnext', Option.any_some, binds_eq hbehind, hbehind.isAt_eq]
  rfl

/-- A number behind a sign. -/
theorem rightIsLiteral_signed (h : StandsIn s i before op (sign :: n :: x :: after))
    (hsign : signs sign = true) (hn : isNumber n.kind = true) :
    rightIsLiteral s i = !tiesBack x := by
  obtain ⟨front, hnext, hfront⟩ := h.exists_next
  obtain ⟨literal, hnext', hliteral⟩ := hfront.exists_next
  obtain ⟨behind, hnext'', hbehind⟩ := hliteral.exists_next
  have hfound : literalAfter? s i = some literal := by
    rw [literalAfter?, hnext, Option.bind_some, isSign_eq hfront, if_pos hsign, hnext',
      Option.filter_some, hliteral.has_eq, if_pos hn]
  rw [rightIsLiteral_eq, hfound]
  dsimp only
  rw [hliteral.has_eq, isLiteral_of_isNumber hn, hnext'', Option.any_some, binds_eq hbehind,
    hbehind.isAt_eq]
  rfl

/-- A sign without a number. -/
theorem rightIsLiteral_sign (h : StandsIn s i before op (sign :: n :: after))
    (hsign : signs sign = true) (hn : isNumber n.kind = false) : rightIsLiteral s i = false := by
  obtain ⟨front, hnext, hfront⟩ := h.exists_next
  obtain ⟨literal, hnext', hliteral⟩ := hfront.exists_next
  have hfound : literalAfter? s i = none := by
    rw [literalAfter?, hnext, Option.bind_some, isSign_eq hfront, if_pos hsign, hnext',
      Option.filter_some, hliteral.has_eq, hn, if_neg Bool.false_ne_true]
  rw [rightIsLiteral_eq, hfound]

/-! ## Both sides -/

/-- A comparison of two operands between parentheses, with its operator at an index. -/
def Compares (s : TokenStream) (i : Nat) (A B : List Lexeme) : Prop :=
  ∃ front opener op closer back, opener.kind = .opens .round ∧ op.kind.isComparison = true ∧
    closer.kind = .closes .round ∧ StandsIn s i (front ++ opener :: A) op (B ++ closer :: back)

variable {A B : List Lexeme}

theorem signs_of_opens {d : Delimiter} (h : l.kind = .opens d) : signs l = false := by
  rw [signs, h]
  rfl

theorem ties_of_opens {d : Delimiter} (h : l.kind = .opens d) : ties l = false := by
  rw [ties, h]
  rfl

theorem tiesBack_of_closes {d : Delimiter} (h : l.kind = .closes d) : tiesBack l = false := by
  rw [tiesBack, ties, h]
  rfl

/-- What it is to be loose at the end, told by the last two tokens. -/
theorem looseAtEnd_pair_iff {ls : List Lexeme} :
    LooseAtEnd (ls ++ [x, l]) ↔ isLiteral l.kind = true ∧ ties x = false ∨
      ∃ ys y, ls = ys ++ [y] ∧ signs x = true ∧ isNumber l.kind = true ∧
        endsOperand y.kind = false ∧ ties y = false := by
  constructor
  · rintro (⟨ys, y, z, heq, hz, hy⟩ | ⟨ys, y, sign, n, heq, hs, hn, hends, hy⟩)
    · obtain ⟨-, hpair⟩ := List.append_inj' heq rfl
      simp only [List.cons.injEq] at hpair
      obtain ⟨rfl, rfl, -⟩ := hpair
      exact .inl ⟨hz, hy⟩
    · rw [List.append_cons ys] at heq
      obtain ⟨rfl, hpair⟩ := List.append_inj' heq rfl
      simp only [List.cons.injEq] at hpair
      obtain ⟨rfl, rfl, -⟩ := hpair
      exact .inr ⟨ys, y, rfl, hs, hn, hends, hy⟩
  · rintro (⟨hl, hx⟩ | ⟨ys, y, rfl, hs, hn, hends, hy⟩)
    · exact .inl ⟨ls, x, l, rfl, hl, hx⟩
    · exact .inr ⟨ys, y, x, l, by rw [List.append_assoc]; rfl, hs, hn, hends, hy⟩

/-- What it is to be loose at the start, told by the first two tokens. -/
theorem looseAtStart_pair_iff {ls : List Lexeme} :
    LooseAtStart (l :: x :: ls) ↔ isLiteral l.kind = true ∧ tiesBack x = false ∨
      ∃ y ys, ls = y :: ys ∧ signs l = true ∧ isNumber x.kind = true ∧ tiesBack y = false := by
  constructor
  · rintro (⟨z, y, ys, heq, hz, hy⟩ | ⟨sign, n, y, ys, heq, hs, hn, hy⟩)
    · simp only [List.cons.injEq] at heq
      obtain ⟨rfl, rfl, -⟩ := heq
      exact .inl ⟨hz, hy⟩
    · simp only [List.cons.injEq] at heq
      obtain ⟨rfl, rfl, rfl⟩ := heq
      exact .inr ⟨y, ys, rfl, hs, hn, hy⟩
  · rintro (⟨hl, hx⟩ | ⟨y, ys, rfl, hs, hn, hy⟩)
    · exact .inl ⟨l, x, ls, rfl, hl, hx⟩
    · exact .inr ⟨l, x, y, ys, rfl, hs, hn, hy⟩

/-- What it is to be lone, told by the last two tokens. -/
theorem isLone_pair_iff {ls : List Lexeme} :
    IsLone (ls ++ [x, l]) ↔ ls = [] ∧ signs x = true ∧ isNumber l.kind = true := by
  constructor
  · intro h
    have hnil : ls = [] := by
      rcases h with ⟨y, heq, -⟩ | ⟨y, z, heq, -⟩
      · have hlength := congrArg List.length heq
        simp at hlength
      · have hpair : ls ++ [x, l] = [] ++ [y, z] := heq
        exact (List.append_inj' hpair rfl).1
    subst hnil
    exact isLone_cons_cons_iff.1 h
  · rintro ⟨rfl, h⟩
    exact isLone_cons_cons_iff.2 ⟨rfl, h⟩

/-- Without a sign in front of a number at its end, an operand is lone or loose there if it ends in a
literal that is not tied. -/
theorem lone_or_looseAtEnd_plain {ls : List Lexeme} (h : (signs x && isNumber l.kind) = false) :
    IsLone (ls ++ [x, l]) ∨ LooseAtEnd (ls ++ [x, l]) ↔
      isLiteral l.kind = true ∧ ties x = false := by
  have hnot : ¬(signs x = true ∧ isNumber l.kind = true) := by
    rw [← Bool.and_eq_true_iff, h]
    exact Bool.false_ne_true
  rw [isLone_pair_iff, looseAtEnd_pair_iff]
  constructor
  · rintro (⟨-, h⟩ | h | ⟨ys, y, -, hs, hn, -⟩)
    · exact absurd h hnot
    · exact h
    · exact absurd ⟨hs, hn⟩ hnot
  · exact fun h => .inr (.inl h)

/-- With a sign and a number at its end, it is so if the sign is one of the number and is not tied. -/
theorem lone_or_looseAtEnd_signed {ls : List Lexeme} (hx : signs x = true)
    (hl : isNumber l.kind = true) :
    IsLone (ls ++ [y] ++ [x, l]) ∨ LooseAtEnd (ls ++ [y] ++ [x, l]) ↔
      endsOperand y.kind = false ∧ ties y = false := by
  rw [isLone_pair_iff, looseAtEnd_pair_iff]
  constructor
  · rintro (⟨hnil, -⟩ | ⟨-, hties⟩ | ⟨ys, z, heq, -, -, hends, hz⟩)
    · exact absurd hnil (List.append_ne_nil_of_right_ne_nil _ (List.cons_ne_nil _ _))
    · rw [ties_of_signs hx] at hties
      cases hties
    · obtain ⟨-, hyz⟩ := List.append_inj' heq rfl
      rw [(List.cons.inj hyz).1]
      exact ⟨hends, hz⟩
  · exact fun ⟨hends, hy⟩ => .inr (.inr ⟨ls, y, rfl, hx, hl, hends, hy⟩)

/-- **Read backward**, an operand is taken for a literal when it is lone or loose at its end. -/
theorem leftIsLiteral_iff (hA : A ≠ []) (h : Compares s i A B) :
    leftIsLiteral s i = true ↔ IsLone A ∨ LooseAtEnd A := by
  obtain ⟨front, opener, op, closer, back, hopener, -, -, hstands⟩ := h
  rcases List.eq_nil_or_concat' A with rfl | ⟨ls, l, rfl⟩
  · exact absurd rfl hA
  rcases List.eq_nil_or_concat' ls with rfl | ⟨ls, x, rfl⟩
  · -- One token, with the parenthesis in front of it.
    have hplain : (signs opener && isNumber l.kind) = false := by rw [signs_of_opens hopener]; rfl
    rw [leftIsLiteral_plain hstands hplain, ties_of_opens hopener, List.nil_append,
      isLone_singleton_iff, or_iff_left (not_looseAtEnd_singleton l), Bool.not_false, Bool.and_true]
  rw [List.append_assoc, List.singleton_append] at hstands ⊢
  rw [← List.cons_append, ← List.append_assoc] at hstands
  cases hsigned : signs x && isNumber l.kind with
  | false =>
    rw [leftIsLiteral_plain hstands hsigned, lone_or_looseAtEnd_plain hsigned,
      Bool.and_eq_true_iff, Bool.not_eq_true']
  | true =>
    obtain ⟨hx, hl⟩ := Bool.and_eq_true_iff.1 hsigned
    rcases List.eq_nil_or_concat' ls with rfl | ⟨ls, y, rfl⟩
    · -- A sign and a number, with the parenthesis in front of them.
      rw [List.append_assoc] at hstands
      rw [leftIsLiteral_signed hstands hx hl, hopener, ties_of_opens hopener]
      exact iff_of_true rfl (.inl (isLone_pair_iff.2 ⟨rfl, hx, hl⟩))
    · rw [← List.cons_append, ← List.append_assoc, List.append_assoc] at hstands
      rw [leftIsLiteral_signed hstands hx hl, lone_or_looseAtEnd_signed hx hl, Bool.and_eq_true_iff,
        Bool.not_eq_true', Bool.not_eq_true']

/-- Without a sign at its start, an operand is lone or loose there if it starts with a literal that is
not tied. -/
theorem lone_or_looseAtStart_plain {ls : List Lexeme} (h : signs l = false) :
    IsLone (l :: x :: ls) ∨ LooseAtStart (l :: x :: ls) ↔
      isLiteral l.kind = true ∧ tiesBack x = false := by
  rw [isLone_cons_cons_iff, looseAtStart_pair_iff, h]
  constructor
  · rintro (⟨-, hs, -⟩ | h | ⟨y, ys, -, hs, -⟩)
    · cases hs
    · exact h
    · cases hs
  · exact fun h => .inr (.inl h)

/-- With a sign there, it is so if a number stands behind the sign, and is not tied to what follows. -/
theorem lone_or_looseAtStart_signed {ls : List Lexeme} (h : signs l = true) :
    IsLone (l :: x :: y :: ls) ∨ LooseAtStart (l :: x :: y :: ls) ↔
      isNumber x.kind = true ∧ tiesBack y = false := by
  rw [isLone_cons_cons_iff, looseAtStart_pair_iff, isLiteral_of_signs h]
  constructor
  · rintro (⟨hnil, -⟩ | ⟨hl, -⟩ | ⟨z, zs, heq, -, hn, hz⟩)
    · cases hnil
    · cases hl
    · rw [(List.cons.inj heq).1]
      exact ⟨hn, hz⟩
  · exact fun ⟨hn, hy⟩ => .inr (.inr ⟨y, ls, rfl, h, hn, hy⟩)

/-- **Read forward**, an operand is taken for a literal when it is lone or loose at its start. -/
theorem rightIsLiteral_iff (hB : B ≠ []) (h : Compares s i A B) :
    rightIsLiteral s i = true ↔ IsLone B ∨ LooseAtStart B := by
  obtain ⟨front, opener, op, closer, back, -, -, hcloser, hstands⟩ := h
  rcases B with - | ⟨l, - | ⟨x, ls⟩⟩
  · exact absurd rfl hB
  · -- One token, with the parenthesis behind it.
    rw [isLone_singleton_iff, or_iff_left (not_looseAtStart_singleton l)]
    cases hsign : signs l with
    | false =>
      rw [rightIsLiteral_plain hstands hsign, tiesBack_of_closes hcloser, Bool.not_false,
        Bool.and_true]
    | true =>
      have hnumber : isNumber closer.kind = false := by rw [hcloser]; rfl
      rw [rightIsLiteral_sign hstands hsign hnumber, isLiteral_of_signs hsign]
  cases hsign : signs l with
  | false =>
    rw [rightIsLiteral_plain hstands hsign, lone_or_looseAtStart_plain hsign, Bool.and_eq_true_iff,
      Bool.not_eq_true']
  | true =>
    rcases ls with - | ⟨y, ys⟩
    · -- A sign and one more token, with the parenthesis behind them.
      rw [isLone_cons_cons_iff, looseAtStart_pair_iff, isLiteral_of_signs hsign]
      cases hn : isNumber x.kind with
      | false =>
        rw [rightIsLiteral_sign hstands hsign hn]
        simp
      | true =>
        rw [rightIsLiteral_signed hstands hsign hn, tiesBack_of_closes hcloser]
        exact iff_of_true rfl (.inl ⟨rfl, hsign, rfl⟩)
    · rw [lone_or_looseAtStart_signed hsign]
      cases hn : isNumber x.kind with
      | false =>
        rw [rightIsLiteral_sign hstands hsign hn]
        simp
      | true =>
        rw [rightIsLiteral_signed hstands hsign hn, Bool.not_eq_true', and_iff_right rfl]

/-! ## The styles -/

/-- The style `require` reports a literal that stands on the right alone. -/
theorem require_reports_iff {ctx : FileContext} :
    findings .require ctx i ≠ [] ↔
      ¬leftIsLiteral ctx.stream i = true ∧ rightIsLiteral ctx.stream i = true := by
  rw [findings]
  cases leftIsLiteral ctx.stream i <;> cases rightIsLiteral ctx.stream i <;> simp

/-- The style `disallow` reports a literal that stands on the left alone. -/
theorem disallow_reports_iff {ctx : FileContext} :
    findings .disallow ctx i ≠ [] ↔
      leftIsLiteral ctx.stream i = true ∧ ¬rightIsLiteral ctx.stream i = true := by
  rw [findings]
  cases leftIsLiteral ctx.stream i <;> cases rightIsLiteral ctx.stream i <;> simp

/-- An operand that is loose at both of its edges or at neither. -/
def Fair (ls : List Lexeme) : Prop := LooseAtEnd ls ↔ LooseAtStart ls

/-- An operand that is put together of values and operators is fair. -/
theorem Operand.fair {ls : List Lexeme} (h : Operand ls) : Fair ls :=
  iff_of_false h.hasTiedEdges.atEnd h.hasTiedEdges.atStart

/-- What holds of the comparisons of two operands, one in the one order and one in the other. -/
structure Mirrored (A B : List Lexeme) : Prop where
  left : ∀ s i, Compares s i A B → (leftIsLiteral s i = true ↔ IsLone A ∨ LooseAtEnd A)
  right : ∀ s i, Compares s i A B → (rightIsLiteral s i = true ↔ IsLone B ∨ LooseAtStart B)
  /-- An operand is classified alike from either side. -/
  alike : Fair A → ∀ s i s' i', Compares s i A B → Compares s' i' B A →
    leftIsLiteral s i = rightIsLiteral s' i'
  reported : Fair A → Fair B → ∀ (ctx ctx' : FileContext) i i', Compares ctx.stream i A B →
    Compares ctx'.stream i' B A → (findings .require ctx i ≠ [] ↔ findings .disallow ctx' i' ≠ [])
  /-- Operands that are put together of values and operators are fair, and taken for a literal exactly
  when they are one. -/
  operands : Operand A → Operand B → Fair A ∧ Fair B ∧ ∀ s i, Compares s i A B →
    (leftIsLiteral s i = true ↔ IsLone A) ∧ (rightIsLiteral s i = true ↔ IsLone B)

/-- **The styles mirror each other**: `require` reports a comparison of two fair operands exactly when
`disallow` reports it with its sides exchanged. -/
theorem styles_mirror (hA : A ≠ []) (hB : B ≠ []) : Mirrored A B := by
  have hleft {s : TokenStream} {i : Nat} (h : Compares s i A B) := leftIsLiteral_iff hA h
  have hright {s : TokenStream} {i : Nat} (h : Compares s i A B) := rightIsLiteral_iff hB h
  constructor
  case left => exact fun s i h => hleft h
  case right => exact fun s i h => hright h
  case alike =>
    intro hfair s i s' i' h h'
    unfold Fair at hfair
    rw [Bool.eq_iff_iff, hleft h, rightIsLiteral_iff hA h', hfair]
  case reported =>
    intro hfairA hfairB ctx ctx' i i' h h'
    unfold Fair at hfairA hfairB
    rw [require_reports_iff, disallow_reports_iff, hleft h, hright h, leftIsLiteral_iff hB h',
      rightIsLiteral_iff hA h', hfairA, hfairB]
    exact and_comm
  case operands =>
    intro hopA hopB
    refine ⟨hopA.fair, hopB.fair, fun s i h => ⟨?_, ?_⟩⟩
    · rw [hleft h, or_iff_left hopA.hasTiedEdges.atEnd]
    · rw [hright h, or_iff_left hopB.hasTiedEdges.atStart]

section Samples

/-- The condition of a statement that starts a file, its operator at an index. -/
def IfCompares (s : TokenStream) (i : Nat) (A B : List Lexeme) : Prop :=
  s.has i Kind.isSignificant = true ∧
    s.code = ⟨.openTag, "<?php\n".toList⟩ :: ⟨.identifier, "if".toList⟩ :: ⟨.opens .round, ['(']⟩ ::
      (A ++ ⟨.comparison .identical, "===".toList⟩ :: (B ++ [⟨.closes .round, [')']⟩,
        ⟨.semicolon, [';']⟩])) ∧
    s.ordinal i = A.length + 3

instance (s : TokenStream) (i : Nat) (A B : List Lexeme) : Decidable (IfCompares s i A B) :=
  inferInstanceAs (Decidable (_ ∧ _ ∧ _))

/-- The condition of a statement is a comparison between parentheses. -/
theorem IfCompares.compares (h : IfCompares s i A B) : Compares s i A B := by
  obtain ⟨hsignificant, hcode, hordinal⟩ := h
  refine ⟨[⟨.openTag, "<?php\n".toList⟩, ⟨.identifier, "if".toList⟩], ⟨.opens .round, ['(']⟩,
    ⟨.comparison .identical, "===".toList⟩, ⟨.closes .round, [')']⟩, [⟨.semicolon, [';']⟩], rfl, rfl,
    rfl, hsignificant, ?_, ?_⟩
  · rw [hcode]
    rfl
  · rw [hordinal]
    rfl

/-- The operand `$x->list`. -/
def memberAccess : List Lexeme :=
  [⟨.variableName, "$x".toList⟩] ++ ⟨.arrow, "->".toList⟩ :: [⟨.identifier, "list".toList⟩]

/-- The operand `$x->list - 1`. -/
def difference : List Lexeme := memberAccess ++ ⟨.operator, ['-']⟩ :: [⟨.integer, ['1']⟩]

/-- The operand `-1`. -/
def minusOne : List Lexeme := [⟨.operator, ['-']⟩, ⟨.integer, ['1']⟩]

/-- A difference is put together of a member access and a number. -/
theorem operand_difference : Operand difference := by
  have haccess : Operand memberAccess :=
    .joined (.value rfl Kind.noConfusion) (.value rfl Kind.noConfusion) rfl fun h => by cases h
  refine .joined haccess (.lone (isLone_singleton rfl)) rfl fun _ _ ys y heq => ?_
  have hlast : memberAccess.take 2 ++ [⟨.identifier, "list".toList⟩] = ys ++ [y] := heq
  obtain ⟨-, hy⟩ := List.append_inj' hlast rfl
  rw [← (List.cons.inj hy).1]
  rfl

/-- The end of a difference is no lone literal, and `-1` is one. -/
theorem styles_mirror_difference :
    difference ≠ [] ∧ minusOne ≠ [] ∧ Operand difference ∧ Operand minusOne ∧
      (∃ s s', TokenStream.ofSource "<?php\nif ($x->list - 1 === - /* */ 1);".toList = .ok s ∧
        TokenStream.ofSource "<?php\nif (-1 === $x->list - 1);".toList = .ok s' ∧
        Compares s 12 difference minusOne ∧ Compares s' 7 minusOne difference ∧
        (leftIsLiteral s 12, rightIsLiteral s 12) = (false, true) ∧
        (leftIsLiteral s' 7, rightIsLiteral s' 7) = (true, false)) ∧
      Mirrored difference minusOne := by
  have hdifference : difference ≠ [] := List.cons_ne_nil _ _
  have hminusOne : minusOne ≠ [] := List.cons_ne_nil _ _
  refine ⟨hdifference, hminusOne, operand_difference,
    .lone (isLone_cons_cons_iff.2 ⟨rfl, rfl, rfl⟩), ?_, styles_mirror hdifference hminusOne⟩
  have hcomputed : (TokenStream.ofSource "<?php\nif ($x->list - 1 === - /* */ 1);".toList).map
      (fun s => decide (IfCompares s 12 difference minusOne ∧
        (leftIsLiteral s 12, rightIsLiteral s 12) = (false, true))) = .ok true := by
    decide +kernel
  have hcomputed' : (TokenStream.ofSource "<?php\nif (-1 === $x->list - 1);".toList).map
      (fun s => decide (IfCompares s 7 minusOne difference ∧
        (leftIsLiteral s 7, rightIsLiteral s 7) = (true, false))) = .ok true := by
    decide +kernel
  obtain ⟨s, hs, hall⟩ := TokenStream.exists_of_map_ofSource hcomputed
  obtain ⟨s', hs', hall'⟩ := TokenStream.exists_of_map_ofSource hcomputed'
  obtain ⟨hcompares, hread⟩ := of_decide_eq_true hall
  obtain ⟨hcompares', hread'⟩ := of_decide_eq_true hall'
  exact ⟨s, s', hs, hs', hcompares.compares, hcompares'.compares, hread, hread'⟩

/-- The operand `$b++ - 1`. -/
def postfixDifference : List Lexeme :=
  [⟨.variableName, "$b".toList⟩, ⟨.operator, "++".toList⟩, ⟨.operator, ['-']⟩, ⟨.integer, ['1']⟩]

/-- The operand `$a`. -/
def plainVariable : List Lexeme := [⟨.variableName, "$a".toList⟩]

/-- Behind a postfix operator a sign is taken for that of a number: one order is reported and the other
one is not. -/
theorem findings_postfix :
    ∃ s s', TokenStream.ofSource "<?php\nif ($a === $b++ - 1);".toList = .ok s ∧
      TokenStream.ofSource "<?php\nif ($b++ - 1 === $a);".toList = .ok s' ∧
      Compares s 6 plainVariable postfixDifference ∧ Compares s' 11 postfixDifference plainVariable ∧
      ∀ ctx ctx' : FileContext, ctx.stream = s → ctx'.stream = s' →
        findings .require ctx 6 = [] ∧ findings .disallow ctx' 11 ≠ [] := by
  have hcomputed : (TokenStream.ofSource "<?php\nif ($a === $b++ - 1);".toList).map
      (fun s => decide (IfCompares s 6 plainVariable postfixDifference ∧
        rightIsLiteral s 6 = false)) = .ok true := by
    decide +kernel
  have hcomputed' : (TokenStream.ofSource "<?php\nif ($b++ - 1 === $a);".toList).map
      (fun s => decide (IfCompares s 11 postfixDifference plainVariable ∧
        leftIsLiteral s 11 = true ∧ ¬rightIsLiteral s 11 = true)) = .ok true := by
    decide +kernel
  obtain ⟨s, hs, hall⟩ := TokenStream.exists_of_map_ofSource hcomputed
  obtain ⟨s', hs', hall'⟩ := TokenStream.exists_of_map_ofSource hcomputed'
  obtain ⟨hcompares, hright⟩ := of_decide_eq_true hall
  obtain ⟨hcompares', hread'⟩ := of_decide_eq_true hall'
  refine ⟨s, s', hs, hs', hcompares.compares, hcompares'.compares, ?_⟩
  rintro ctx ctx' rfl rfl
  refine ⟨?_, disallow_reports_iff.2 hread'⟩
  by_contra hreported
  rw [(require_reports_iff.1 hreported).2] at hright
  cases hright

end Samples

end OperandOrder

end PhpLint

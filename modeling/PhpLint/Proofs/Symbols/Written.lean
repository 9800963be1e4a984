import PhpLint.Proofs.Lexing.Construct
import PhpLint.Proofs.Text.Cut
import PhpLint.Symbol.NameScope

/-!
# Names as files write them

The symbol table holds **normal** names, which have no separator in front.  Code **refers** to them
with at most one there.  A name is read token by token, so its front is known from its first token,
or its first two if the name starts with a separator (`isReference_of_readName?`).

In an import the name that is read is only part of the name that is meant: inside of a group its
prefix comes first.  `Import.cursorsFrom` lists the places that an import statement is read from,
with the prefix at each.  If no prefix is written with a separator in front, every name that is
imported is normal (`isNormal_target`).
-/

namespace PhpLint

/-- A name as the table has it: it is not empty, and no separator stands in front. -/
def IsNormal (name : Text) : Prop := name ≠ [] ∧ name.head? ≠ some '\\'

/-- A name as code has it: a normal name, perhaps behind one separator. -/
def IsReference (name : Text) : Prop :=
  IsNormal name ∨ ∃ rest, name = '\\' :: rest ∧ IsNormal rest

instance (name : Text) : Decidable (IsNormal name) := inferInstanceAs (Decidable (_ ∧ _))

variable {name rest : Text} {c : Char}

/-- A name is normal when its first character is no separator. -/
theorem isNormal_cons : IsNormal (c :: rest) ↔ c ≠ '\\' := by
  simp [IsNormal]

/-- A normal name has a first character, which is no separator. -/
theorem IsNormal.exists_cons (h : IsNormal name) : ∃ c rest, name = c :: rest ∧ c ≠ '\\' := by
  obtain ⟨c, rest, rfl⟩ := List.exists_cons_of_ne_nil h.1
  exact ⟨c, rest, rfl, isNormal_cons.1 h⟩

/-- The front of a name decides whether it is normal. -/
theorem IsNormal.of_isPrefix {front : Text} (h : IsNormal front) (hname : front <+: name) :
    IsNormal name := by
  obtain ⟨c, rest, rfl, hc⟩ := h.exists_cons
  obtain ⟨tail, rfl⟩ := hname
  exact isNormal_cons.2 hc

theorem IsNormal.qualifyWith (h : IsNormal name) (rest : Text) :
    IsNormal (qualifyWith name rest) :=
  h.of_isPrefix (List.prefix_append name ('\\' :: rest))

/-- A normal name stays normal when separators are taken off its end. -/
theorem IsNormal.trimEndOf (h : IsNormal name) : IsNormal (Text.trimEndOf (· == '\\') name) := by
  obtain ⟨c, rest, rfl, hc⟩ := h.exists_cons
  have htrim := Text.trimEndOf_append_cons (p := (· == '\\')) (by simpa using hc) [] rest
  rw [List.nil_append, List.nil_append] at htrim
  rw [htrim]
  exact isNormal_cons.2 hc

/-- A normal name has no separator in front to take off. -/
theorem IsNormal.stripLeading_eq (h : IsNormal name) : stripLeading name = name := by
  obtain ⟨c, rest, rfl, hc⟩ := h.exists_cons
  exact Text.trimStartOf_cons (by simpa using hc) rest

/-- A reference without the separator in front is normal. -/
theorem IsReference.stripLeading (h : IsReference name) : IsNormal (stripLeading name) := by
  rcases h with h | ⟨rest, rfl, h⟩
  · rwa [h.stripLeading_eq]
  · have hstrip : PhpLint.stripLeading ('\\' :: rest) = PhpLint.stripLeading rest := rfl
    rwa [hstrip, h.stripLeading_eq]

/-! ## Reading a name -/

/-- An identifier starts like a name. -/
theorem Scan.Occurs.identifier {l : Lexeme} {after : List Lexeme} (h : Occurs l after)
    (hk : l.kind = .identifier) : IsNormal l.text := by
  obtain ⟨previous, c, rest, n, hconstruct, htext, -⟩ :=
    h.exists_construct (by simp [hk]) (by simp [hk]) (by rw [hk]; rfl)
  have hstart : isNameStart c = true := by
    rw [hk] at hconstruct
    cases hconstruct with
    | identifier hc => exact hc
    | single hsingle => rcases sign?_of_single hsingle with h | h <;> cases h
    | longer hentry => simp [Operator.longer] at hentry
    | number _ hnumber => rcases hnumber with h | h <;> cases h
  rw [htext, isNormal_cons]
  rintro rfl
  revert hstart
  decide

namespace TokenStream

/-- The identifiers of a stream are normal names. -/
def HasWords (s : TokenStream) : Prop := ∀ i, s.isAt i .identifier = true → IsNormal (s.content i)

/-- In the stream of a source identifiers are normal names. -/
theorem hasWords_of_ofSource {source : Text} {s : TokenStream} (h : ofSource source = .ok s) :
    s.HasWords := by
  intro i hi
  obtain ⟨ls, hlaid, hoccurs⟩ := exists_occurs h
  obtain ⟨t, ht, hk⟩ := exists_of_isAt hi
  have hl := hlaid.lexeme_eq ht
  rw [content_of_token? ht]
  exact (hoccurs i _ hl).identifier hk

variable {s : TokenStream} {i k stop : Nat}

/-- A name that is read on keeps what was read of it. -/
theorem isPrefix_nameFrom (s : TokenStream) (name : Text) (n i : Nat) :
    name <+: (s.nameFrom name n i).1 := by
  induction n generalizing name i with
  | zero => exact List.prefix_rfl
  | succ n ih =>
    rw [nameFrom]
    split
    · exact (List.prefix_append name _).trans (ih _ _)
    · exact List.prefix_rfl

/-- A name starts with what its first token adds, and goes on with the tokens behind it. -/
theorem exists_part_of_readName? (h : s.readName? i = some (name, stop)) :
    ∃ t part, s.token? i = some t ∧ namePart? [] t = some part ∧
      name = (s.nameFrom part (s.size - (i + 1)) (i + 1)).1 := by
  unfold readName? at h
  dsimp only at h
  split at h
  · cases h
  · next hne =>
    obtain ⟨rfl, -⟩ := Prod.mk.inj (Option.some.inj h)
    cases hn : s.size - i with
    | zero => simp [hn, nameFrom] at hne
    | succ n =>
      rw [hn, nameFrom] at hne
      rw [nameFrom]
      have hrest : s.size - (i + 1) = n := by omega
      cases hpart : (s.token? i).bind (namePart? []) with
      | none => simp [hpart] at hne
      | some part =>
        obtain ⟨t, ht, hpart⟩ := Option.bind_eq_some_iff.1 hpart
        exact ⟨t, part, ht, hpart, by rw [hrest]; rfl⟩

/-- The first token of a name is a separator or an identifier. -/
theorem namePart?_nil {t : Token} {part : Text} (h : namePart? [] t = some part) :
    t.kind = .backslash ∧ part = ['\\'] ∨ t.kind = .identifier ∧ part = t.content := by
  unfold namePart? at h
  split at h
  · next hkind => exact .inl ⟨hkind, (Option.some.inj h).symm⟩
  · next hkind => exact .inr ⟨hkind, (Option.some.inj h).symm⟩
  · simp at h

/-- A name that does not start with a separator is normal. -/
theorem isNormal_of_readName? (hwords : s.HasWords) (hslash : s.isAt i .backslash = false)
    (h : s.readName? i = some (name, stop)) : IsNormal name := by
  obtain ⟨t, part, ht, hpart, rfl⟩ := exists_part_of_readName? h
  have hkind : s.kind? i = some t.kind := kind?_of_token? ht
  rcases namePart?_nil hpart with ⟨hk, -⟩ | ⟨hk, rfl⟩
  · rw [hk] at hkind
    rw [isAt_iff.2 hkind] at hslash
    cases hslash
  · rw [hk] at hkind
    have hnormal := hwords i (isAt_iff.2 hkind)
    rw [content_of_token? ht] at hnormal
    exact hnormal.of_isPrefix (s.isPrefix_nameFrom _ _ _)

/-- A name is a reference if a separator in front of it stands right before an identifier. -/
theorem isReference_of_readName? (hwords : s.HasWords)
    (hslash : s.isAt i .backslash = true → s.isAt (i + 1) .identifier = true)
    (h : s.readName? i = some (name, stop)) : IsReference name := by
  by_cases hi : s.isAt i .backslash = true
  · obtain ⟨t, part, ht, hpart, rfl⟩ := exists_part_of_readName? h
    have hkind : t.kind = .backslash := (isAt_of_token? ht .backslash).1 hi
    obtain ⟨-, rfl⟩ := (namePart?_nil hpart).resolve_right fun hword => by
      rw [hkind] at hword
      cases hword.1
    -- The second token is the identifier, and the name goes on with its text.
    have hword := hwords (i + 1) (hslash hi)
    obtain ⟨t', ht', hk'⟩ := exists_of_isAt (hslash hi)
    rw [content_of_token? ht'] at hword
    obtain ⟨n, hn⟩ : ∃ n, s.size - (i + 1) = n + 1 := by
      have := lt_size_of_has (has_of_isAt (hslash hi) fun _ => true)
      exact ⟨s.size - (i + 1) - 1, by omega⟩
    have hpart' : (s.token? (i + 1)).bind (namePart? ['\\']) = some t'.content := by
      rw [ht', Option.bind_some, namePart?, hk']
    rw [hn, nameFrom, hpart']
    obtain ⟨tail, htail⟩ := s.isPrefix_nameFrom (['\\'] ++ t'.content) n (i + 1 + 1)
    refine .inr ⟨t'.content ++ tail, ?_, hword.of_isPrefix (List.prefix_append _ tail)⟩
    rw [← htail]
    rfl
  · exact .inl (isNormal_of_readName? hwords (eq_false_of_ne_true hi) h)

/-- Right before the next token that carries code stands no identifier, if none stands where the
search starts. -/
theorem not_identifier_of_nextSignificant (hk : s.isAt k .identifier = false)
    (h : s.nextSignificant k = some i) : s.isAt (i - 1) .identifier = false := by
  obtain ⟨hlt, -, hnone⟩ := findNext_eq_some_iff.1 h
  rcases Nat.lt_or_eq_of_le hlt with hlt | heq
  · by_contra hat
    have hbetween := hnone (i - 1) (by omega) (by omega)
    rw [has_of_isAt (eq_true_of_ne_false hat)] at hbetween
    cases hbetween
  · have hi : i - 1 = k := by omega
    rwa [hi]

/-- Where an identifier does not stand because another kind does. -/
theorem not_identifier_of_isAt {kind : Kind} (h : s.isAt k kind = true)
    (hkind : kind ≠ .identifier) :
    s.isAt k .identifier = false := by
  rw [isAt, isAt_iff.1 h, beq_eq_false_iff_ne]
  exact fun heq => hkind (Option.some.inj heq)

/-- Behind a sign or a keyword the next name is read from a place with no identifier before it. -/
theorem not_identifier_behind {kind : Kind} (hk : s.isAt k kind = true) (hkind : kind ≠ .identifier)
    (h : s.nextSignificant k = some i) : s.isAt (i - 1) .identifier = false :=
  not_identifier_of_nextSignificant (not_identifier_of_isAt hk hkind) h

end TokenStream

/-! ## Import statements -/

namespace Import

variable {s : TokenStream} {useIndex : Nat} {c next : UseCursor}

/-- The name at an index is the prefix of a group: a brace stands right behind it. -/
def startsGroup (s : TokenStream) (i : Nat) : Bool :=
  (s.readName? i).any fun read => s.isAt read.2 (.opens .curly)

/-- The cursors of a `use` statement from one on. -/
def cursorsFrom (s : TokenStream) (useIndex : Nat) (c : UseCursor) : List UseCursor :=
  match _h : (step s useIndex c).2 with
  | none => [c]
  | some next => c :: cursorsFrom s useIndex next
termination_by s.size - c.index
decreasing_by
  have := lt_of_step _h
  omega

/-- The cursors of the `use` statement at an index. -/
def cursors (s : TokenStream) (useIndex : Nat) : List UseCursor :=
  match s.nextSignificant useIndex with
  | some first => if isForeign (s.content first) then [] else cursorsFrom s useIndex ⟨first, []⟩
  | none => []

/-- The cursors of a statement are the first one and those from the next one on. -/
theorem cursorsFrom_eq (s : TokenStream) (useIndex : Nat) (c : UseCursor) :
    cursorsFrom s useIndex c =
      c :: ((step s useIndex c).2.map (cursorsFrom s useIndex)).getD [] := by
  rw [cursorsFrom]
  split
  · next hstep => rw [hstep, Option.map_none, Option.getD_none]
  · next hstep => rw [hstep, Option.map_some, Option.getD_some]

/-- Each import is read at one of the cursors. -/
theorem exists_step_of_mem {im : Import} (h : im ∈ fromCursor s useIndex c) :
    ∃ c' ∈ cursorsFrom s useIndex c, (step s useIndex c').1 = some im := by
  have hhere {c : UseCursor} (h : im ∈ (step s useIndex c).1.toList) :
      ∃ c' ∈ cursorsFrom s useIndex c, (step s useIndex c').1 = some im := by
    rw [cursorsFrom_eq]
    exact ⟨c, List.mem_cons_self, Option.mem_toList.1 h⟩
  fun_induction fromCursor s useIndex c with
  | case1 c hstop => exact hhere h
  | case2 c next hgo ih =>
    rcases List.mem_append.1 h with h | h
    · exact hhere h
    · obtain ⟨c', hc', hstep⟩ := ih h
      rw [cursorsFrom_eq, hgo]
      exact ⟨c', List.mem_cons_of_mem c hc', hstep⟩

/-- Each import was made at one of the cursors. -/
theorem exists_cursor_of_mem {im : Import} (h : im ∈ ofUse s useIndex) :
    ∃ c ∈ cursors s useIndex, (step s useIndex c).1 = some im := by
  unfold ofUse at h
  unfold cursors
  cases hfirst : s.nextSignificant useIndex with
  | none => simp [hfirst] at h
  | some first =>
    simp only [hfirst] at h
    split at h
    · cases h
    · next hforeign =>
      simp only [if_neg hforeign]
      exact exists_step_of_mem h

/-- Where a name of a statement is read: no identifier stands right before it, and the prefix that
goes before the name is normal if there is one. -/
structure Sound (s : TokenStream) (c : UseCursor) : Prop where
  start : s.isAt (c.index - 1) .identifier = false
  group : c.group = [] ∨ IsNormal c.group

/-- The next cursor stands behind no identifier, in the same group or in none. -/
theorem next_of_cursorAfter? {group : Text} {after : Nat}
    (h : cursorAfter? s group after = some next) :
    s.isAt (next.index - 1) .identifier = false ∧ (next.group = group ∨ next.group = []) := by
  simp only [cursorAfter?, Option.bind_eq_bind, Option.bind_eq_some_iff] at h
  obtain ⟨separator, -, h⟩ := h
  split at h
  · next hseparator =>
    obtain ⟨i, hi, heq⟩ := Option.bind_eq_some_iff.1 h
    obtain rfl := Option.some.inj heq
    exact ⟨TokenStream.not_identifier_behind hseparator (by decide) hi, .inl rfl⟩
  · split at h
    · obtain ⟨comma, -, h⟩ := Option.bind_eq_some_iff.1 h
      split at h
      · next hat =>
        obtain ⟨i, hi, heq⟩ := Option.bind_eq_some_iff.1 h
        obtain rfl := Option.some.inj heq
        exact ⟨TokenStream.not_identifier_behind hat (by decide) hi, .inr rfl⟩
      · cases h
    · cases h

/-- The next name of a statement stands behind a comma or a brace, and its prefix is the one before,
none, or the name that the brace follows. -/
theorem next_of_step (h : (step s useIndex c).2 = some next) :
    s.isAt (next.index - 1) .identifier = false ∧
      (next.group = c.group ∨ next.group = [] ∨ startsGroup s c.index = true ∧
        ∃ name after, s.readName? c.index = some (name, after) ∧
          next.group = Text.trimEndOf (· == '\\') name) := by
  simp only [step] at h
  split at h
  · cases h
  · next name after hname =>
    split at h
    · next hopener =>
      obtain ⟨i, hi, rfl⟩ := Option.map_eq_some_iff.1 h
      refine ⟨TokenStream.not_identifier_behind hopener (by decide) hi,
        .inr (.inr ⟨?_, name, after, hname, rfl⟩)⟩
      rw [startsGroup, hname]
      exact hopener
    · obtain ⟨hstart, hgroup⟩ := next_of_cursorAfter? h
      exact ⟨hstart, hgroup.imp_right .inl⟩

/-- From one cursor on, all are sound if no group's prefix is written with a separator in front. -/
theorem sound_of_mem (hwords : s.HasWords)
    (hgroup : ∀ c' ∈ cursorsFrom s useIndex c, startsGroup s c'.index = true →
      s.isAt c'.index .backslash = false)
    (hsound : Sound s c) : ∀ c' ∈ cursorsFrom s useIndex c, Sound s c' := by
  fun_induction cursorsFrom s useIndex c with
  | case1 c hstop =>
    intro c' hc'
    rwa [List.mem_singleton.1 hc']
  | case2 c next hgo ih =>
    obtain ⟨hstart, hcases⟩ := next_of_step hgo
    have hnext : Sound s next := by
      refine ⟨hstart, ?_⟩
      rcases hcases with hsame | hnone | ⟨hopens, name, after, hname, htrim⟩
      · rw [hsame]
        exact hsound.group
      · exact .inl hnone
      · have hslash := hgroup c List.mem_cons_self hopens
        rw [htrim]
        exact .inr (TokenStream.isNormal_of_readName? hwords hslash hname).trimEndOf
    intro c' hc'
    rcases List.mem_cons.1 hc' with rfl | hc'
    · exact hsound
    · exact ih (fun c' hc' => hgroup c' (List.mem_cons_of_mem c hc')) hnext c' hc'

/-- What a sound cursor imports has a normal name, if a separator in front of the name that is read
stands right before an identifier. -/
theorem isNormal_target {im : Import} (hwords : s.HasWords) (hsound : Sound s c)
    (hslash : s.isAt c.index .backslash = true → s.isAt (c.index + 1) .identifier = true)
    (h : (step s useIndex c).1 = some im) : IsNormal im.target := by
  simp only [step] at h
  split at h
  · cases h
  · next name after hname =>
    split at h
    · cases h
    · obtain rfl := Option.some.inj h
      have hreference := TokenStream.isReference_of_readName? hwords hslash hname
      unfold targetOf
      dsimp only
      split
      · exact hreference.stripLeading
      · next hprefix =>
        have hgroup := hsound.group.resolve_left fun hnil => hprefix (by rw [hnil]; rfl)
        exact hgroup.qualifyWith name

end Import

end PhpLint

import PhpLint.Proofs.LineEnds.Text
import PhpLint.Proofs.Lexing.Construct
import PhpLint.Proofs.Lexing.Positions
import PhpLint.Proofs.Lexing.Search
import PhpLint.Sniff.StrictDeclaration

/-!
# The one text that declares strict types

The check searches the parts of the declaration one by one, each as the next token of its kind, and
compares lines and columns afterwards.  A search may land far away, but only in a place that the
columns give away: what starts where the part before ends is the token right behind it
(`LaidOut.eq_succ_of_adjacent`).  So the parts are six tokens in a row (`wellFormed_iff_isPrefix`),
and since a lexer in code reads the canonical text as just these tokens, the check accepts the text
itself and nothing else (`wellFormed_iff`).

`canonical_of_ofSource` says this of all the violations of a file.
-/

namespace PhpLint.StrictDeclaration

open TokenStream (LaidOut)

/-! ## The text and its lexemes -/

/-- The text of the declaration behind its keyword. -/
def declarationText : Text := "(strict_types=1);".toList

/-- The lexemes of the declaration behind its keyword. -/
def declaration : List Lexeme :=
  [⟨.opens .round, ['(']⟩, ⟨.identifier, "strict_types".toList⟩, ⟨.assign, ['=']⟩,
   ⟨.integer, ['1']⟩, ⟨.closes .round, [')']⟩, ⟨.semicolon, [';']⟩]

theorem spell_declaration : Lexeme.spell declaration = declarationText := by
  decide

/-- The declaration stands on one line, and its signs are written as signs are. -/
theorem written_declaration :
    ∀ l ∈ declaration, '\n' ∉ l.text ∧ ∀ c, Scan.sign? l.kind = some c → l.text = [c] := by
  simp [declaration, Scan.sign?]

/-- What the check asks of a lexeme: its kind, and its text if the kind leaves the text open. -/
def demand (l : Lexeme) : Kind × Option Text :=
  (l.kind, if (Scan.sign? l.kind).isSome then none else some l.text)

theorem shape_eq : shape = declaration.map demand := rfl

/-- One construct of code is one lexeme in front of what is read behind it. -/
theorem isPrefix_cons {previous : Option Kind} {c : Char} {rest : Text} {k : Kind} {n : Nat}
    {row : List Lexeme} (hread : Scan.read previous c rest = .one k n) (hk : k ≠ .closeTag)
    (h : row <+: (Scan.ofText .code (Scan.previousAfter previous k) (rest.drop n)).lexemes) :
    ⟨k, c :: rest.take n⟩ :: row <+: (Scan.ofText .code previous (c :: rest)).lexemes := by
  rw [Scan.ofText_one hread, if_neg hk, Scan.lexemes_after, List.singleton_append]
  exact (List.prefix_cons_inj _).2 h

/-- Behind the keyword the scan reads the text as the lexemes of the declaration. -/
theorem isPrefix_of_text {after : List Lexeme}
    (hscan : after = (Scan.ofText .code (some (.keyword .kwDeclare)) (Lexeme.spell after)).lexemes)
    (h : declarationText <+: Lexeme.spell after) : declaration <+: after := by
  obtain ⟨t, ht⟩ := h
  rw [hscan, ← ht]
  have hsemicolon : declaration.drop 5 <+:
      (Scan.ofText .code (some (.closes .round)) (';' :: t)).lexemes :=
    isPrefix_cons (k := .semicolon) (n := 0) rfl (by decide) List.nil_prefix
  have hcloser : declaration.drop 4 <+:
      (Scan.ofText .code (some .integer) (')' :: ';' :: t)).lexemes :=
    isPrefix_cons (k := .closes .round) (n := 0) rfl (by decide) hsemicolon
  have hvalue : declaration.drop 3 <+:
      (Scan.ofText .code (some .assign) ('1' :: ')' :: ';' :: t)).lexemes :=
    isPrefix_cons (k := .integer) (n := 0) rfl (by decide) hcloser
  have hassign : declaration.drop 2 <+:
      (Scan.ofText .code (some .identifier) ('=' :: '1' :: ')' :: ';' :: t)).lexemes :=
    isPrefix_cons (k := .assign) (n := 0) rfl (by decide) hvalue
  have hread : Scan.read (some (.opens .round)) 's' ("trict_types=1);".toList ++ t) =
      .one .identifier 11 := rfl
  have hname := isPrefix_cons hread (by decide) hassign
  exact isPrefix_cons (k := .opens .round) (n := 0) rfl (by decide) hname

/-! ## Parts in a row -/

section Row

variable {source : Text} {s : TokenStream} {ls : List Lexeme}

/-- Parts that are found one after another and stand side by side are lexemes in a row. -/
theorem isPrefix_of_parts? (hlaid : LaidOut source s ls)
    (hoccurs : ∀ i l, ls[i]? = some l → Scan.Occurs l (ls.drop (i + 1))) {row : List Lexeme}
    (hrow : ∀ l ∈ row, '\n' ∉ l.text ∧ ∀ c, Scan.sign? l.kind = some c → l.text = [c])
    {i : Nat} {t : Token} {parts : List Token} (ht : s.token? i = some t) (hfeed : '\n' ∉ t.content)
    (hparts : parts? s (row.map Lexeme.kind) i = some parts)
    (htexts : (parts.zip (row.map demand)).all (fun (t, _, text) => text.all (t.content == ·)) = true)
    (hadjacent : adjacent t.line t.endColumn parts = true) : row <+: ls.drop (i + 1) := by
  induction row generalizing i t parts with
  | nil => exact List.nil_prefix
  | cons l row ih =>
    simp only [List.map_cons, parts?, Option.bind_eq_bind, Option.bind_eq_some_iff,
      Option.pure_def, Option.some.injEq] at hparts
    obtain ⟨j, hj, u, hu, us, hus, rfl⟩ := hparts
    simp only [adjacent, Bool.and_eq_true, beq_iff_eq] at hadjacent
    obtain ⟨⟨hline, hcolumn⟩, hnext⟩ := hadjacent
    simp only [List.map_cons, List.zip_cons_cons, List.all_cons, Bool.and_eq_true] at htexts
    obtain ⟨htext, htexts⟩ := htexts
    obtain rfl : j = i + 1 := hlaid.eq_succ_of_adjacent ht hu hfeed hline hcolumn
    have hlexeme := hlaid.lexeme_eq hu
    have hkind : u.kind = l.kind := by
      have hhas := TokenStream.has_of_findNext hj
      rwa [TokenStream.has_of_token? hu, beq_iff_eq] at hhas
    have hcontent : u.content = l.text := by
      cases hsign : Scan.sign? l.kind with
      | some c =>
        rw [(hrow l List.mem_cons_self).2 c hsign]
        exact (hoccurs _ _ hlexeme).sign (hkind ▸ hsign)
      | none => simpa [demand, hsign] using htext
    have hfeed' : '\n' ∉ u.content := hcontent ▸ (hrow l List.mem_cons_self).1
    have hprefix := ih (fun l hl => hrow l (List.mem_cons_of_mem _ hl)) hu hfeed' hus htexts
      (hline ▸ hnext)
    rw [hkind, hcontent] at hlexeme
    obtain ⟨hlt, hget⟩ := List.getElem?_eq_some_iff.1 hlexeme
    rw [List.drop_eq_getElem_cons hlt, hget]
    exact (List.prefix_cons_inj _).2 hprefix

/-- Lexemes in a row of kinds that change are found one after another and stand side by side. -/
theorem parts?_of_isPrefix (hlaid : LaidOut source s ls) {row : List Lexeme}
    (hrow : ∀ l ∈ row, '\n' ∉ l.text) {i : Nat} {t : Token} (ht : s.token? i = some t)
    (hfeed : '\n' ∉ t.content) (hchain : (t.kind :: row.map Lexeme.kind).IsChain (· ≠ ·))
    (h : row <+: ls.drop (i + 1)) :
    ∃ parts, parts? s (row.map Lexeme.kind) i = some parts ∧
      (parts.zip (row.map demand)).all (fun (t, _, text) => text.all (t.content == ·)) = true ∧
      adjacent t.line t.endColumn parts = true := by
  induction row generalizing i t with
  | nil => exact ⟨[], rfl, rfl, rfl⟩
  | cons l row ih =>
    have hlexeme : ls[i + 1]? = some l := by
      obtain ⟨after, hafter⟩ := h
      rw [← List.head?_drop, ← hafter]
      rfl
    obtain ⟨hlt, hget⟩ := List.getElem?_eq_some_iff.1 hlexeme
    rw [List.drop_eq_getElem_cons hlt, hget, List.prefix_cons_inj] at h
    obtain ⟨u, hu, hkind, hcontent⟩ : ∃ u, s.token? (i + 1) = some u ∧ u.kind = l.kind ∧
        u.content = l.text := by
      rw [hlaid.token?_eq, hlexeme]
      exact ⟨_, rfl, rfl, rfl⟩
    obtain ⟨hne, hchain⟩ := List.isChain_cons_cons.1 hchain
    have hfeed' : '\n' ∉ u.content := hcontent ▸ hrow l List.mem_cons_self
    obtain ⟨us, hus, htexts, hnext⟩ := ih (fun l hl => hrow l (List.mem_cons_of_mem _ hl)) hu hfeed'
      (hkind ▸ hchain) h
    obtain ⟨hline, hcolumn⟩ := hlaid.next_of_not_mem ht hu hfeed
    have hfound : s.findNext (· == l.kind) i = some (i + 1) := by
      refine TokenStream.findNext_eq_some_iff.2 ⟨by omega, ?_, fun k hik hk => ?_⟩
      · rw [TokenStream.has_of_token? hu, hkind, beq_self_eq_true]
      · obtain rfl : k = i := by omega
        rw [TokenStream.has_of_token? ht, beq_eq_false_iff_ne]
        exact hne
    refine ⟨u :: us, ?_, ?_, ?_⟩
    · simp [parts?, hfound, hu, hus]
    · simp only [List.map_cons, List.zip_cons_cons, List.all_cons, htexts, Bool.and_true]
      cases hsign : Scan.sign? l.kind <;> simp [demand, hsign, hcontent]
    · rw [adjacent, hline, hcolumn, ← hline, hnext]
      simp

/-- A declaration is well formed when its lexemes stand right behind the keyword. -/
theorem wellFormed_iff_isPrefix (hlaid : LaidOut source s ls)
    (hoccurs : ∀ i l, ls[i]? = some l → Scan.Occurs l (ls.drop (i + 1))) {i : Nat} {t : Token}
    (ht : s.token? i = some t) (hk : t.kind = .keyword .kwDeclare) (hfeed : '\n' ∉ t.content) :
    wellFormed s i t = true ↔ declaration <+: ls.drop (i + 1) := by
  unfold wellFormed
  constructor
  · intro h
    cases hparts : parts? s (shape.map Prod.fst) i with
    | none => simp [hparts] at h
    | some parts =>
      simp only [hparts, Bool.and_eq_true] at h
      exact isPrefix_of_parts? hlaid hoccurs written_declaration ht hfeed hparts h.1 h.2
  · intro h
    have hchain : (t.kind :: declaration.map Lexeme.kind).IsChain (· ≠ ·) := by
      rw [hk]
      decide
    obtain ⟨parts, hparts, htexts, hadjacent⟩ :=
      parts?_of_isPrefix hlaid (by decide) ht hfeed hchain h
    have hshape : shape.map Prod.fst = declaration.map Lexeme.kind := by
      rw [shape_eq, List.map_map]
      rfl
    rw [hshape, hparts]
    simp only [Bool.and_eq_true]
    exact ⟨htexts, hadjacent⟩

/-- At an offset of the source stands the word `declare`, in letters of any case, and then the
text of the declaration. -/
def DeclaresAt (source : Text) (offset : Nat) : Prop :=
  ∃ before word after, source = before ++ (word ++ declarationText ++ after) ∧
    Text.utf8Length before = offset ∧ Text.foldCase word = "declare".toList

/-- The lexemes of the declaration stand behind the keyword when its text does. -/
theorem isPrefix_iff_declaresAt (hlaid : LaidOut source s ls)
    (hoccurs : ∀ i l, ls[i]? = some l → Scan.Occurs l (ls.drop (i + 1))) {i : Nat} {t : Token}
    (ht : s.token? i = some t) (hk : t.kind = .keyword .kwDeclare) :
    declaration <+: ls.drop (i + 1) ↔ DeclaresAt source t.offset := by
  obtain ⟨hletters, hscan⟩ := (hoccurs i _ (hlaid.lexeme_eq ht)).keyword hk
  have hsplit := hlaid.splitBytes?_offset ht
  have hsource := (Text.splitBytes?_eq_some_iff.1 hsplit).1
  constructor
  · intro ⟨after, hafter⟩
    refine ⟨_, t.content, Lexeme.spell after, ?_, (hlaid.offset_eq ht).symm, hletters⟩
    rw [← spell_declaration, List.append_assoc t.content, ← Lexeme.spell_append, hafter]
    exact hsource
  · intro ⟨before, word, after, hparts, hoffset, hword⟩
    have hcut := Text.splitBytes?_eq_some_iff.2 ⟨hparts, hoffset⟩
    have hrest := (Prod.mk.inj (Option.some.inj (hcut.symm.trans hsplit))).2
    rw [List.append_assoc] at hrest
    have hlength : word.length = t.content.length := by
      rw [← Text.length_foldCase, hword, ← Text.length_foldCase t.content, hletters]
      rfl
    have htext := (List.append_inj hrest hlength).2
    exact isPrefix_of_text hscan ⟨after, htext⟩

/-- **The canonical text.**  The keyword starts a well-formed declaration when the text does. -/
theorem wellFormed_iff (hlaid : LaidOut source s ls)
    (hoccurs : ∀ i l, ls[i]? = some l → Scan.Occurs l (ls.drop (i + 1))) {i : Nat} {t : Token}
    (ht : s.token? i = some t) (hk : t.kind = .keyword .kwDeclare) :
    wellFormed s i t = true ↔ DeclaresAt source t.offset := by
  have hletters := ((hoccurs i _ (hlaid.lexeme_eq ht)).keyword hk).1
  have hfeed : '\n' ∉ t.content := Text.feed_notMem_of_foldCase hletters (by decide)
  rw [wellFormed_iff_isPrefix hlaid hoccurs ht hk hfeed]
  exact isPrefix_iff_declaresAt hlaid hoccurs ht hk

end Row

/-! ## Verdicts -/

/-- The first token of a kind from an index on. -/
structure IsFirst (s : TokenStream) (k : Kind) (start i : Nat) (t : Token) : Prop where
  token : s.token? i = some t
  kind : t.kind = k
  start_le : start ≤ i
  first : ∀ j, start ≤ j → j < i → s.kind? j ≠ some k

/-- The file declares strict types as it has to behind the open tag at `o`: the first `declare` from
there on stands at the start of the next line, and the text of the declaration with it. -/
def Declares (source : Text) (s : TokenStream) (o : Nat) (tag : Token) : Prop :=
  ∃ i word, IsFirst s (.keyword .kwDeclare) o i word ∧ word.line = tag.line + 1 ∧ word.column = 1 ∧
    DeclaresAt source word.offset

/-- The first condition that the file fails behind the open tag at `o`. -/
inductive Fails (source : Text) (s : TokenStream) (o : Nat) (tag : Token) : Failure → Prop
  | missing (hnone : ∀ i, o ≤ i → s.kind? i ≠ some (.keyword .kwDeclare)) :
      Fails source s o tag .missing
  | wrongPosition {i : Nat} {word : Token} (hfirst : IsFirst s (.keyword .kwDeclare) o i word)
      (hline : word.line ≠ tag.line + 1) : Fails source s o tag .wrongPosition
  | leadingSpace {i : Nat} {word : Token} (hfirst : IsFirst s (.keyword .kwDeclare) o i word)
      (hline : word.line = tag.line + 1) (hcolumn : word.column ≠ 1) :
      Fails source s o tag .leadingSpace
  | invalid {i : Nat} {word : Token} (hfirst : IsFirst s (.keyword .kwDeclare) o i word)
      (hline : word.line = tag.line + 1) (hcolumn : word.column = 1)
      (htext : ¬DeclaresAt source word.offset) : Fails source s o tag .invalid

section Verdict

variable {source : Text} {s : TokenStream} {k : Kind} {start i j : Nat} {t u : Token}

/-- A kind stands at an index when the token there is of the kind. -/
theorem has_beq_iff : s.has i (· == k) = true ↔ s.kind? i = some k := by
  cases h : s.kind? i <;> simp [TokenStream.has, h]

/-- A search for a kind finds the first token of the kind. -/
theorem findNext_eq_some_iff_isFirst :
    s.findNext (· == k) start = some i ↔ ∃ t, IsFirst s k start i t := by
  rw [TokenStream.findNext_eq_some_iff, has_beq_iff]
  constructor
  · intro ⟨hstart, hkind, hfirst⟩
    obtain ⟨t, ht, hk⟩ := Option.map_eq_some_iff.1 hkind
    refine ⟨t, ht, hk, hstart, fun j hj hji => ?_⟩
    rw [Ne, ← has_beq_iff, hfirst j hj hji]
    exact Bool.false_ne_true
  · intro ⟨t, h⟩
    refine ⟨h.start_le, ?_, fun j hj hji => ?_⟩
    · rw [TokenStream.kind?_of_token? h.token, h.kind]
    · rw [Bool.eq_false_iff, Ne, has_beq_iff]
      exact h.first j hj hji

/-- There is one first token of a kind. -/
theorem IsFirst.unique (h : IsFirst s k start i t) (h' : IsFirst s k start j u) : i = j ∧ t = u := by
  have hi := findNext_eq_some_iff_isFirst.2 ⟨t, h⟩
  have hj := findNext_eq_some_iff_isFirst.2 ⟨u, h'⟩
  obtain rfl := Option.some.inj (hi.symm.trans hj)
  exact ⟨rfl, Option.some.inj (h.token.symm.trans h'.token)⟩

/-- A file that declares strict types fails no condition. -/
theorem Declares.not_fails {f : Failure} (h : Declares source s start t) :
    ¬Fails source s start t f := by
  obtain ⟨i, word, hfirst, hline, hcolumn, htext⟩ := h
  intro hfails
  cases hfails with
  | missing hnone =>
    apply hnone i hfirst.start_le
    rw [TokenStream.kind?_of_token? hfirst.token, hfirst.kind]
  | wrongPosition hfirst' hline' =>
    obtain ⟨-, rfl⟩ := hfirst.unique hfirst'
    exact hline' hline
  | leadingSpace hfirst' _ hcolumn' =>
    obtain ⟨-, rfl⟩ := hfirst.unique hfirst'
    exact hcolumn' hcolumn
  | invalid hfirst' _ _ htext' =>
    obtain ⟨-, rfl⟩ := hfirst.unique hfirst'
    exact htext' htext

/-- What the check answers at an open tag is the verdict on the source. -/
theorem verdict_failure? (hsource : TokenStream.ofSource source = .ok s)
    (ht : s.token? start = some t) :
    match failure? s start with
    | none => Declares source s start t
    | some f => Fails source s start t f := by
  obtain ⟨ls, hlaid, hoccurs⟩ := TokenStream.exists_occurs hsource
  cases hfound : s.findNext (· == .keyword .kwDeclare) start with
  | none =>
    rw [failure?, hfound]
    refine .missing fun i hi hkind => ?_
    have hfirst := TokenStream.findNext_eq_none_iff.1 hfound i hi
    rw [← has_beq_iff, hfirst] at hkind
    cases hkind
  | some i =>
    obtain ⟨word, hfirst⟩ := findNext_eq_some_iff_isFirst.1 hfound
    have hline : s.line start = t.line := TokenStream.line_of_token? ht
    have hformed := wellFormed_iff hlaid hoccurs hfirst.token hfirst.kind
    simp only [failure?, hfound, hfirst.token, hline]
    by_cases hposition : word.line = t.line + 1
    · rw [if_neg (not_not_intro hposition)]
      by_cases hcolumn : word.column = 1
      · rw [if_neg (not_not_intro hcolumn)]
        by_cases htext : wellFormed s i word = true
        · rw [if_pos htext]
          exact ⟨i, word, hfirst, hposition, hcolumn, hformed.1 htext⟩
        · rw [if_neg htext]
          exact .invalid hfirst hposition hcolumn (mt hformed.2 htext)
      · rw [if_pos hcolumn]
        exact .leadingSpace hfirst hposition hcolumn
    · rw [if_pos hposition]
      exact .wrongPosition hfirst hposition

end Verdict

/-! ## The violations of a file -/

/-- What the check reports of a file when it is asked at all its open tags. -/
def violations (severity : Severity) (ctx : FileContext) : List Violation :=
  ((List.range ctx.stream.size).filter (ctx.stream.isAt · .openTag)).flatMap
    ((sniff severity).process ctx)

/-- The violation at an open tag. -/
def violation (severity : Severity) (ctx : FileContext) (tag : Token) (f : Failure) : Violation where
  code := "PS001"
  rule := "strict-declaration"
  reason := some f.reason
  severity
  location := .ofToken ctx.path tag
  message := f.message
  suggestion := none
  labels := []

/-- What the check reports of a file is what its text says. -/
structure Canonical (severity : Severity) (ctx : FileContext) : Prop where
  /-- Without an open tag there is nothing to report. -/
  untagged : (∀ i, ctx.stream.kind? i ≠ some .openTag) → violations severity ctx = []
  /-- Nothing is reported exactly when the text of the declaration stands where it has to. -/
  accepted : ∀ o tag, IsFirst ctx.stream .openTag 0 o tag →
    (violations severity ctx = [] ↔ Declares ctx.source ctx.stream o tag)
  /-- Otherwise the first failure is reported, once and at the first open tag. -/
  rejected : ∀ o tag, IsFirst ctx.stream .openTag 0 o tag →
    ¬Declares ctx.source ctx.stream o tag →
      ∃ f, Fails ctx.source ctx.stream o tag f ∧
        violations severity ctx = [violation severity ctx tag f]

section Violations

variable {severity : Severity} {ctx : FileContext} {o i : Nat} {tag : Token}

/-- At the first open tag the check reports the failure there, if there is one. -/
theorem process_of_isFirst (h : IsFirst ctx.stream .openTag 0 o tag) :
    (sniff severity).process ctx o =
      (failure? ctx.stream o).toList.map (violation severity ctx tag) := by
  have hnone : ctx.stream.findBefore (· == .openTag) o = none := by
    refine TokenStream.findBefore_eq_none_iff.2 fun j hj => ?_
    rw [Bool.eq_false_iff, Ne, has_beq_iff]
    exact h.first j (Nat.zero_le j) hj
  have hlocation : ctx.location o = .ofToken ctx.path tag := by
    rw [FileContext.location, h.token]
  simp only [Sniff.process, sniff, findings, hnone, Option.isSome_none, Bool.false_eq_true, if_false]
  cases failure? ctx.stream o with
  | none => rfl
  | some f => simp [Sniff.violation, violation, hlocation]

/-- At a later open tag the check reports nothing. -/
theorem process_of_lt (h : IsFirst ctx.stream .openTag 0 o tag) (hi : o < i) :
    (sniff severity).process ctx i = [] := by
  have hsome : (ctx.stream.findBefore (· == .openTag) i).isSome = true := by
    rw [Option.isSome_iff_ne_none]
    intro hnone
    have hopen := TokenStream.findBefore_eq_none_iff.1 hnone o hi
    rw [Bool.eq_false_iff, Ne, has_beq_iff, TokenStream.kind?_of_token? h.token, h.kind] at hopen
    exact hopen rfl
  simp only [Sniff.process, sniff, findings, hsome, if_true, List.map_nil]

/-- All that is reported of a file is reported at its first open tag. -/
theorem violations_of_isFirst (h : IsFirst ctx.stream .openTag 0 o tag) :
    violations severity ctx = (failure? ctx.stream o).toList.map (violation severity ctx tag) := by
  rw [← process_of_isFirst h, violations]
  have hmem : o ∈ (List.range ctx.stream.size).filter (ctx.stream.isAt · .openTag) := by
    rw [List.mem_filter, List.mem_range]
    refine ⟨TokenStream.lt_size_of_token? h.token, ?_⟩
    exact (TokenStream.isAt_of_token? h.token .openTag).2 h.kind
  have hnodup : ((List.range ctx.stream.size).filter (ctx.stream.isAt · .openTag)).Nodup :=
    List.nodup_range.filter _
  have hother : ∀ i ∈ (List.range ctx.stream.size).filter (ctx.stream.isAt · .openTag), i ≠ o →
      (sniff severity).process ctx i = [] := by
    intro i hi hne
    have hopen := TokenStream.isAt_iff.1 (List.mem_filter.1 hi).2
    rcases Nat.lt_or_gt_of_ne hne with hlt | hlt
    · exact absurd hopen (h.first i (Nat.zero_le i) hlt)
    · exact process_of_lt h hlt
  obtain ⟨front, back, hsplit⟩ := List.append_of_mem hmem
  rw [hsplit] at hnodup hother ⊢
  have hfront : front.flatMap ((sniff severity).process ctx) = [] := by
    refine List.flatMap_eq_nil_iff.2 fun i hi => hother i (by simp [hi]) ?_
    intro heq
    have hdisjoint := (List.nodup_append.1 hnodup).2.2
    exact hdisjoint i hi o List.mem_cons_self heq
  have hback : back.flatMap ((sniff severity).process ctx) = [] := by
    refine List.flatMap_eq_nil_iff.2 fun i hi => hother i (by simp [hi]) ?_
    intro heq
    have hdistinct := (List.nodup_cons.1 (List.nodup_append.1 hnodup).2.1).1
    exact hdistinct (heq ▸ hi)
  rw [List.flatMap_append, List.flatMap_cons, hfront, hback]
  simp

/-- **The declaration of strict types is the canonical text.** -/
theorem canonical_of_ofSource (severity : Severity) {ctx : FileContext}
    (h : TokenStream.ofSource ctx.source = .ok ctx.stream) : Canonical severity ctx := by
  constructor
  case untagged =>
    intro hnone
    have hempty : (List.range ctx.stream.size).filter (ctx.stream.isAt · .openTag) = [] := by
      refine List.filter_eq_nil_iff.2 fun i _ => ?_
      rw [TokenStream.isAt_iff]
      exact hnone i
    rw [violations, hempty, List.flatMap_nil]
  case accepted =>
    intro o tag hfirst
    have hverdict := verdict_failure? h hfirst.token
    rw [violations_of_isFirst hfirst]
    cases hfailure : failure? ctx.stream o with
    | none =>
      rw [hfailure] at hverdict
      exact iff_of_true rfl hverdict
    | some f =>
      rw [hfailure] at hverdict
      exact iff_of_false (by simp) fun hdeclares => hdeclares.not_fails hverdict
  case rejected =>
    intro o tag hfirst hdeclares
    have hverdict := verdict_failure? h hfirst.token
    rw [violations_of_isFirst hfirst]
    cases hfailure : failure? ctx.stream o with
    | none =>
      rw [hfailure] at hverdict
      exact absurd hverdict hdeclares
    | some f =>
      rw [hfailure] at hverdict
      exact ⟨f, hverdict, rfl⟩

/-- A file with a byte order mark and text in front, which declares strict types in capitals. -/
theorem canonical_of_ofSource_capitals :
    ∃ ctx : FileContext,
      ctx.source = "\uFEFF<html><?php\nDECLARE(strict_types=1); ?>\n<?= 1".toList ∧
      TokenStream.ofSource ctx.source = .ok ctx.stream ∧ violations .error ctx = [] ∧
      Canonical .error ctx := by
  obtain ⟨ctx, hsource, hstream, -, hnone⟩ : ∃ ctx : FileContext,
      ctx.source = "\uFEFF<html><?php\nDECLARE(strict_types=1); ?>\n<?= 1".toList ∧
      TokenStream.ofSource ctx.source = .ok ctx.stream ∧
      ctx.symbols = SymbolTable.ofStreams [ctx.stream] ∧ violations .error ctx = [] :=
    FileContext.exists_context (by decide +kernel)
  exact ⟨ctx, hsource, hstream, hnone, canonical_of_ofSource .error hstream⟩

end Violations

end PhpLint.StrictDeclaration

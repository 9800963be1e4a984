import PhpLint.Proofs.Lexing.ByteSlice
import PhpLint.Proofs.Lexing.DocComment
import PhpLint.Proofs.Lexing.Layout
import PhpLint.Proofs.Pairing.Nesting

/-!
# Doc comments form closed groups

A **doc group** is a stretch of a stream from the opener of a doc comment to a closer, with nothing
but inner kinds between.  Two groups that share a token are the same (`DocGroup.unique`), since an
opener is no closer and neither is an inner kind.

In the stream of a source the groups are the doc comments of its reading
(`LaidOut.exists_of_docGroup`), so each ends at the first close behind its opener, holds line feeds
only at the ends of spaces, and starts the content of each of its lines with at most one tag.  No
bracket lies inside of a group, so its ends are partners whatever stands around it.
-/

namespace PhpLint.TokenStream

open Comment (isInnerKind docSource ClosesFirst)

/-- A stretch of a stream from the opener of a doc comment to a closer, inner kinds between. -/
structure DocGroup (s : TokenStream) (i j : Nat) : Prop where
  lt : i < j
  opener : s.isAt i (.opens .docComment) = true
  closer : s.isAt j (.closes .docComment) = true
  inner : ∀ k, i < k → k < j → s.has k isInnerKind = true

namespace DocGroup

variable {s : TokenStream} {i j i' j' k : Nat}

/-- An opener is neither inside of a group nor the end of one. -/
theorem not_inner_of_opener (h : s.isAt i (.opens .docComment) = true) :
    s.has i isInnerKind = false ∧ s.isAt i (.closes .docComment) = false := by
  refine ⟨has_of_isAt h isInnerKind, ?_⟩
  rw [isAt, isAt_iff.1 h]
  rfl

theorem not_inner_of_closer (h : s.isAt i (.closes .docComment) = true) :
    s.has i isInnerKind = false :=
  has_of_isAt h isInnerKind

/-- Of the tokens of a group only the first one opens a doc comment. -/
theorem eq_opener (h : DocGroup s i j) (hk : s.isAt k (.opens .docComment) = true) (hik : i ≤ k)
    (hkj : k ≤ j) : k = i := by
  obtain ⟨hinner, hcloser⟩ := not_inner_of_opener hk
  by_contra hne
  rcases Nat.lt_or_eq_of_le hkj with hkj | rfl
  · rw [h.inner k (by omega) hkj] at hinner
    cases hinner
  · rw [h.closer] at hcloser
    cases hcloser

/-- A group that starts in another one starts no later than that. -/
theorem le_opener (h : DocGroup s i j) (h' : DocGroup s i' j') (hk : k ≤ j) (hk' : i' ≤ k) :
    i' ≤ i := by
  by_contra hlt
  have heq := h.eq_opener h'.opener (by omega) (Nat.le_trans hk' hk)
  omega

/-- Groups with one opener end together. -/
theorem le_closer (h : DocGroup s i j) (h' : DocGroup s i j') : j' ≤ j := by
  by_contra hlt
  have hinner := not_inner_of_closer h.closer
  rw [h'.inner j h.lt (by omega)] at hinner
  cases hinner

/-- Groups that share a token are the same. -/
theorem unique (h : DocGroup s i j) (h' : DocGroup s i' j') (hk : i ≤ k ∧ k ≤ j)
    (hk' : i' ≤ k ∧ k ≤ j') : i = i' ∧ j = j' := by
  obtain rfl : i = i' := Nat.le_antisymm (h'.le_opener h hk'.2 hk.1) (h.le_opener h' hk.2 hk'.1)
  exact ⟨rfl, Nat.le_antisymm (h'.le_closer h) (h.le_closer h')⟩

/-- The ends of a group are partners. -/
theorem partner? (h : DocGroup s i j) : s.partner? i = some j ∧ s.partner? j = some i := by
  refine partner?_of_adjacent h.lt (isAt_iff.1 h.opener) (isAt_iff.1 h.closer) ?_
  intro k hik hkj
  have hinner := h.inner k hik hkj
  cases hkind : s.kind? k with
  | none => simp [has, hkind]
  | some kind =>
    simp only [has, hkind, Option.any_some] at hinner ⊢
    cases kind <;> first | rfl | cases hinner

end DocGroup

namespace LaidOut

variable {source : Text} {s : TokenStream} {ls before after : List Lexeme} {body : Text}

/-- The lexemes of a body, counted from its doc comment on. -/
theorem getElem?_doc {m : Nat} (hm : m < (Comment.docBody false body).length) :
    (before ++ Comment.doc body ++ after)[before.length + 1 + m]? =
      (Comment.docBody false body)[m]? := by
  rw [List.append_assoc, List.getElem?_append_right (by omega),
    show before.length + 1 + m - before.length = m + 1 by omega, Comment.doc]
  simp [List.getElem?_append_left hm]

/-- A doc comment of the reading is a group of the stream. -/
theorem docGroup (h : LaidOut source s (before ++ Comment.doc body ++ after)) :
    DocGroup s before.length (before.length + 1 + (Comment.docBody false body).length) := by
  constructor
  case lt => omega
  case opener => simp [isAt_iff, h.kind?_eq, Comment.doc]
  case closer => simp [isAt_iff, h.kind?_eq, Comment.doc, Nat.add_assoc, Nat.add_comm 1]
  case inner =>
    intro k hik hkj
    obtain ⟨m, rfl⟩ : ∃ m, k = before.length + 1 + m := ⟨k - (before.length + 1), by omega⟩
    have hm : m < (Comment.docBody false body).length := by omega
    have hinner := Comment.isInnerKind_of_mem_docBody (List.getElem_mem hm)
    rw [has, h.kind?_eq, getElem?_doc hm, List.getElem?_eq_getElem hm]
    simpa using hinner

/-- Every token of a doc comment's kind lies in a group, which is a doc comment of the reading. -/
theorem exists_doc (h : LaidOut source s ls) {k : Nat} (hk : s.has k Kind.isDocComment = true) :
    ∃ before body after, ls = before ++ Comment.doc body ++ after ∧ ClosesFirst body ∧
      before.length ≤ k ∧ k ≤ before.length + 1 + (Comment.docBody false body).length := by
  simp only [has, h.kind?_eq, Option.any_eq_true, Option.map_eq_some_iff] at hk
  obtain ⟨_, ⟨l, hl, rfl⟩, hkind⟩ := hk
  obtain ⟨before, body, after, hls, hcloses, hle, hlt⟩ := h.reads.exists_doc hl hkind
  refine ⟨before, body, after, hls, hcloses, hle, ?_⟩
  simp [Comment.doc] at hlt
  omega

/-- Every group is a doc comment of the reading. -/
theorem exists_of_docGroup (h : LaidOut source s ls) {i j : Nat} (hgroup : DocGroup s i j) :
    ∃ before body after, ls = before ++ Comment.doc body ++ after ∧ ClosesFirst body ∧
      i = before.length ∧ j = before.length + 1 + (Comment.docBody false body).length := by
  obtain ⟨before, body, after, rfl, hcloses, hle, hlt⟩ :=
    h.exists_doc (has_of_isAt hgroup.opener _)
  obtain ⟨hi, hj⟩ := hgroup.unique h.docGroup ⟨Nat.le_refl i, Nat.le_of_lt hgroup.lt⟩ ⟨hle, hlt⟩
  exact ⟨before, body, after, rfl, hcloses, hi, hj⟩

/-- The tokens of a group are the lexemes of its doc comment. -/
theorem mem_doc (h : LaidOut source s (before ++ Comment.doc body ++ after)) {k : Nat} {t : Token}
    (hle : before.length ≤ k) (hlt : k ≤ before.length + 1 + (Comment.docBody false body).length)
    (ht : s.token? k = some t) : ⟨t.kind, t.content⟩ ∈ Comment.doc body := by
  have hlexeme := h.lexeme_eq ht
  rw [List.append_assoc, List.getElem?_append_right hle,
    List.getElem?_append_left (by simp [Comment.doc]; omega)] at hlexeme
  exact List.mem_of_getElem? hlexeme

/-- The text of a group is the source of its doc comment. -/
theorem textBetween_doc (h : LaidOut source s (before ++ Comment.doc body ++ after)) :
    s.textBetween before.length (before.length + 1 + (Comment.docBody false body).length) =
      docSource body := by
  rw [h.textBetween_append rfl (by simp [Comment.doc]; omega), Comment.spell_doc]

/-- In a group, a tag stands on a later line than the content in front of it. -/
theorem line_lt_of_tag (h : LaidOut source s ls) {i j k l : Nat} {t u : Token}
    (hgroup : DocGroup s i j) (hik : i < k) (hkl : k < l) (hlj : l < j) (ht : s.token? k = some t)
    (hu : s.token? l = some u) (hcontent : t.kind.isDocContent = true) (htag : u.kind = .docTag) :
    t.line < u.line := by
  obtain ⟨before, body, after, rfl, -, rfl, rfl⟩ := h.exists_of_docGroup hgroup
  obtain ⟨m, rfl⟩ : ∃ m, k = before.length + 1 + m := ⟨k - (before.length + 1), by omega⟩
  obtain ⟨n, rfl⟩ : ∃ n, l = before.length + 1 + n := ⟨l - (before.length + 1), by omega⟩
  have hk := h.lexeme_eq ht
  have hl := h.lexeme_eq hu
  rw [getElem?_doc (by omega)] at hk hl
  -- Between the content and the tag stand the lexemes `ys`.
  obtain ⟨xs, ys, zs, hbody, rfl, rfl⟩ := exists_append_of_getElem? (by omega) hk hl
  rw [show before.length + 1 + (xs.length + 1 + ys.length) =
    before.length + 1 + xs.length + ys.length + 1 by omega] at hu
  have hfeed := Comment.feed_mem_of_content hbody hcontent htag
  -- The text from the content up to the tag holds the line feed, so the line number grows over it.
  have hparts : LaidOut source s
      (before ++ (⟨.opens .docComment, ['/', '*', '*']⟩ :: xs) ++ (⟨t.kind, t.content⟩ :: ys) ++
        (⟨u.kind, u.content⟩ :: zs ++ ⟨.closes .docComment, ['*', '/']⟩ :: after)) := by
    simpa [Comment.doc, hbody] using h
  have htext : s.textBetween (before.length + 1 + xs.length)
      (before.length + 1 + xs.length + ys.length) = t.content ++ Lexeme.spell ys := by
    rw [hparts.textBetween_append (by simp; omega) (by simp; omega), Lexeme.spell_cons]
  have hcount : 0 < (Lexeme.spell ys).count '\n' := List.count_pos_iff.2 hfeed
  have hline := congrArg Position.line (h.position_past (Nat.le_add_right _ ys.length) ht hu)
  rw [Position.line_past, htext, List.count_append] at hline
  simp only [Token.position] at hline
  omega

end LaidOut

/-- The doc comments of a stream are closed groups. -/
structure DocGrouped (source : Text) (s : TokenStream) : Prop where
  /-- Every opener opens a group. -/
  closed : ∀ i, s.isAt i (.opens .docComment) = true → ∃ j, DocGroup s i j
  /-- The ends of a group are partners, whatever brackets stand around it. -/
  partners : ∀ i j, DocGroup s i j → s.partner? i = some j ∧ s.partner? j = some i
  /-- Every token of a doc comment's kind lies in one group and no other. -/
  covered : ∀ k, s.has k Kind.isDocComment = true →
    ∃! group : Nat × Nat, DocGroup s group.1 group.2 ∧ group.1 ≤ k ∧ k ≤ group.2
  /-- Where a group stands, the source has its text, which ends at the first close behind the
  opener. -/
  text : ∀ i j t, DocGroup s i j → s.token? i = some t → ∃ before body after,
    Text.splitBytes? t.offset source = some (before, docSource body ++ after) ∧
      s.textBetween i j = docSource body ∧ ClosesFirst body
  /-- A line feed is the last character of a space, and its only one. -/
  feeds : ∀ i j k t, DocGroup s i j → i ≤ k → k ≤ j → s.token? k = some t → '\n' ∈ t.content →
    t.kind = .docSpace ∧ ∃ front, t.content = front ++ ['\n'] ∧ '\n' ∉ front
  /-- Before a tag on its line there is no other tag and no text. -/
  lines : ∀ i j k l t u, DocGroup s i j → i < k → k < l → l < j → s.token? k = some t →
    s.token? l = some u → t.line = u.line → u.kind = .docTag →
    t.kind ≠ .docTag ∧ t.kind ≠ .docText

/-- **Doc comments are closed groups.**  In the stream of every source, they are. -/
theorem docGrouped_ofSource {source : Text} {s : TokenStream} (h : ofSource source = .ok s) :
    DocGrouped source s := by
  obtain ⟨ls, hlaid⟩ := exists_laidOut h
  have hcovered (k : Nat) (hk : s.has k Kind.isDocComment = true) :
      ∃ i j, DocGroup s i j ∧ i ≤ k ∧ k ≤ j := by
    obtain ⟨before, body, after, rfl, -, hle, hlt⟩ := hlaid.exists_doc hk
    exact ⟨_, _, hlaid.docGroup, hle, hlt⟩
  constructor
  case closed =>
    intro i hi
    obtain ⟨i', j, hgroup, hle, hlt⟩ := hcovered i (has_of_isAt hi _)
    obtain rfl := hgroup.eq_opener hi hle hlt
    exact ⟨j, hgroup⟩
  case partners => exact fun i j hgroup => hgroup.partner?
  case covered =>
    intro k hk
    obtain ⟨i, j, hgroup, hin⟩ := hcovered k hk
    refine ⟨(i, j), ⟨hgroup, hin⟩, ?_⟩
    rintro ⟨i', j'⟩ ⟨hgroup', hin'⟩
    obtain ⟨rfl, rfl⟩ := hgroup'.unique hgroup hin' hin
    rfl
  case text =>
    intro i j t hgroup ht
    obtain ⟨before, body, after, rfl, hcloses, rfl, rfl⟩ := hlaid.exists_of_docGroup hgroup
    have hsource := hlaid.source_eq (Nat.le_of_lt hgroup.lt)
    rw [hlaid.textBetween_doc, List.append_assoc _ (docSource body)] at hsource
    exact ⟨_, body, _, Text.splitBytes?_eq_some_iff.2 ⟨hsource, (hlaid.offset_eq ht).symm⟩,
      hlaid.textBetween_doc, hcloses⟩
  case feeds =>
    intro i j k t hgroup hik hkj ht
    obtain ⟨before, body, after, rfl, -, rfl, rfl⟩ := hlaid.exists_of_docGroup hgroup
    exact Comment.feedLast_of_mem_doc (hlaid.mem_doc hik hkj ht)
  case lines =>
    intro i j k l t u hgroup hik hkl hlj ht hu hline htag
    have hlt (hcontent : t.kind.isDocContent = true) : False :=
      absurd (hlaid.line_lt_of_tag hgroup hik hkl hlj ht hu hcontent htag) (by omega)
    constructor
    · intro hkind
      exact hlt (by rw [hkind]; rfl)
    · intro hkind
      exact hlt (by rw [hkind]; rfl)

/-- Two doc comments among brackets that do not fit, one of them over two lines with tags. -/
theorem docGrouped_ofSource_brackets :
    ∃ s, ofSource "<?php (] /** x @a b\r\n * @c d * / e */ [ { /***/ }".toList = .ok s ∧
      s.size = 24 ∧
      DocGrouped "<?php (] /** x @a b\r\n * @c d * / e */ [ { /***/ }".toList s := by
  have hsize : (ofSource "<?php (] /** x @a b\r\n * @c d * / e */ [ { /***/ }".toList).map size =
      .ok 24 := by decide +kernel
  obtain ⟨s, hs, hsize⟩ := exists_of_size_ofSource hsize
  exact ⟨s, hs, hsize, docGrouped_ofSource hs⟩

end PhpLint.TokenStream

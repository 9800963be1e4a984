import Mathlib.Data.List.Chain
import PhpLint.Proofs.LineEnds.Along

/-!
# Scans with returns

The two forms of a source scan to lexemes side by side, with the same fault (`sameScan_ofText`).  Each
case of the scan has its own lemma: an open tag, text outside of code, and one reading of code.

Text outside of code comes right behind a closing tag or at the start, and an open tag or the end comes
right behind it (`follows_ofText`).
-/

namespace PhpLint

open Text (withReturns SameCut)

namespace Scan

/-! ## Outside of code -/

/-- Behind the long open tag, one blank or line feed belongs to it. -/
theorem openTagLength?_of_word {t after : Text} {d : Char}
    (hecho : ¬Text.startsWith ['<', '?', '='] t = true)
    (htag : Text.foldCase (t.take 5) = "<?php".toList) (hafter : t.drop 5 = d :: after)
    (hd : d ≠ '\r') : openTagLength? t = some (if isBlank d || d == '\n' then 6 else 5) := by
  unfold openTagLength?
  rw [if_neg hecho, if_pos htag, hafter]
  split
  · next heq => exact absurd (List.cons.inj heq).1 hd
  · next heq => rw [(List.cons.inj heq).1]
  · next heq => cases heq

/-- An open tag with a line end behind it takes all of that line end. -/
theorem openTagLength?_withReturns {t : Text} (hreturn : '\r' ∉ t) :
    Option.Rel (SameCut t) (openTagLength? t) (openTagLength? (withReturns t)) := by
  have hstart : Text.startsWith ['<', '?', '='] (withReturns t) = _ :=
    Text.startsWith_withReturns (by decide) (by decide) t
  have hword : _ ↔ Text.foldCase (t.take 5) = "<?php".toList :=
    Text.foldCase_take_withReturns (by decide) (by decide) t 5
  by_cases hecho : Text.startsWith ['<', '?', '='] t = true
  · obtain ⟨after, rfl⟩ := Text.startsWith_iff.1 hecho
    unfold openTagLength?
    rw [hstart, if_pos hecho, if_pos hecho]
    exact .some (SameCut.of_front (by decide))
  have hecho' := hecho
  rw [← hstart] at hecho'
  by_cases htag : Text.foldCase (t.take 5) = "<?php".toList
  · have hcut := SameCut.of_not_mem (Text.feed_notMem_of_foldCase htag (by decide))
    cases hafter : t.drop 5 with
    | nil =>
      unfold openTagLength?
      rw [if_neg hecho, if_neg hecho', if_pos htag, if_pos (hword.2 htag), hcut.drop, hafter]
      exact .some hcut
    | cons d after =>
      have hd : d ≠ '\r' := by
        rintro rfl
        exact hreturn (List.mem_of_mem_drop (hafter ▸ List.mem_cons_self))
      have hdrop := hcut.drop
      rw [openTagLength?_of_word hecho htag hafter hd]
      by_cases hline : d = '\n'
      · subst hline
        unfold openTagLength?
        rw [if_neg hecho', if_pos (hword.2 htag), hdrop, hafter, Text.withReturns_feed]
        exact .some (hcut.add (hafter ▸ (SameCut.zero after).feed))
      · rw [hafter, Text.withReturns_cons hline] at hdrop
        rw [openTagLength?_of_word hecho' (hword.2 htag) hdrop hd]
        refine .some ?_
        by_cases hblank : (isBlank d || d == '\n') = true
        · rw [if_pos hblank]
          exact hcut.add (hafter ▸ (SameCut.zero after).cons hline)
        · rw [if_neg hblank]
          exact hcut
  · unfold openTagLength?
    rw [if_neg hecho, if_neg hecho', if_neg (mt hword.1 htag), if_neg htag]
    exact .none

/-- The search for an open tag stops at the same cut. -/
theorem untilOpenTag_withReturns {t : Text} (hreturn : '\r' ∉ t) :
    SameCut t (untilOpenTag t) (untilOpenTag (withReturns t)) := by
  induction t with
  | nil => exact SameCut.zero []
  | cons c t ih =>
    rw [List.mem_cons, not_or] at hreturn
    by_cases hc : c = '\n'
    · subst hc
      have hnone {d : Char} (hd : d ≠ '<') (t : Text) :
          untilOpenTag (d :: t) = untilOpenTag t + 1 := by
        rw [untilOpenTag, openTagLength?_of_ne hd, if_neg (by decide)]
      rw [Text.withReturns_feed, hnone (by decide), hnone (by decide), hnone (by decide)]
      exact (ih hreturn.2).feed
    · have htag := openTagLength?_withReturns (t := c :: t) (by simpa using hreturn)
      have hsome : (openTagLength? (withReturns (c :: t))).isSome = (openTagLength? (c :: t)).isSome := by
        revert htag
        generalize openTagLength? (c :: t) = length
        generalize openTagLength? (withReturns (c :: t)) = length'
        intro htag
        cases htag <;> rfl
      rw [Text.withReturns_cons hc] at hsome ⊢
      rw [untilOpenTag, untilOpenTag, hsome]
      by_cases hfound : (openTagLength? (c :: t)).isSome = true
      · rw [if_pos hfound, if_pos hfound]
        exact SameCut.zero _
      · rw [if_neg hfound, if_neg hfound]
        exact (ih hreturn.2).cons hc

/-! ## The whole scan -/

/-- Scans behind the two forms of the text `u`: lexemes side by side, and the same fault. -/
structure SameScan (u : Text) (s s' : Scan) : Prop where
  along : Along u (withReturns u) s.lexemes s'.lexemes
  fault : s'.fault = s.fault

/-- A lexeme and its other form go in front of scans side by side. -/
theorem SameScan.one {k : Kind} {u t : Text} {s s' : Scan}
    (htext : Suits k t) (h : SameScan (u ++ t) s s') :
    SameScan u (s.after [⟨k, t⟩]) (s'.after [⟨k, withReturns t⟩]) :=
  ⟨.both_withReturns htext h.along, h.fault⟩

/-- A line end outside of code belongs to the text around it. -/
theorem ofText_lineEnd (previous : Option Kind) (t : Text) :
    ofText .html previous ('\r' :: '\n' :: t) =
      (ofText .html (some .inlineHtml) (t.drop (untilOpenTag t))).after
        [⟨.inlineHtml, '\r' :: '\n' :: t.take (untilOpenTag t)⟩] := by
  have huntil : untilOpenTag ('\n' :: t) = untilOpenTag t + 1 := by
    rw [untilOpenTag, openTagLength?_of_ne (by decide), if_neg (by decide)]
  rw [ofText_html (openTagLength?_of_ne (by decide) _), huntil, List.drop_succ_cons,
    List.take_succ_cons]

/-- Texts outside of code are alike whatever they hold. -/
theorem like_html (u u' t t' : Text) : Like u u' ⟨.inlineHtml, t⟩ ⟨.inlineHtml, t'⟩ :=
  ⟨rfl, fun h => absurd rfl h, fun h => absurd rfl h, fun h => (by cases h),
    .of_mayBreak rfl fun h => by cases h⟩

/-- A closing tag is like the one that leaves its line feed behind. -/
theorem like_closeTag (u : Text) :
    Like u (withReturns u) ⟨.closeTag, ['?', '>', '\n']⟩ ⟨.closeTag, ['?', '>']⟩ :=
  ⟨rfl, fun _ => .inl rfl, fun _ => .inr ⟨rfl, rfl⟩, fun h => (by cases h),
    fun h => (by cases h), fun h => (by cases h), fun _ => rfl⟩

/-- Behind a closing tag with a line feed, the line end that the tag leaves is a lexeme of its own, or
is part of the text there. -/
theorem sameScan_left {u after : Text} {p q : Option Kind} (hreturn : '\r' ∉ after)
    (h : SameScan (u ++ ['?', '>', '\n']) (ofText .html p after)
      (ofText .html p (withReturns after))) :
    SameScan u ((ofText .html p after).after [⟨.closeTag, ['?', '>', '\n']⟩])
      ((ofText .html q ('\r' :: '\n' :: withReturns after)).after [⟨.closeTag, ['?', '>']⟩]) := by
  have hcut := untilOpenTag_withReturns hreturn
  obtain ⟨halong, hfault⟩ := h
  have hend : withReturns ['?', '>', '\n'] = ['?', '>', '\r', '\n'] := rfl
  rw [Text.withReturns_append, hend] at halong
  rw [ofText_lineEnd]
  by_cases htag : untilOpenTag after = 0
  · rw [htag] at hcut
    rw [hcut.drop, hcut.take, List.drop_zero, List.take_zero, Text.withReturns_nil,
      ofText_html_previous (some .inlineHtml) p]
    exact ⟨.left (like_closeTag u) rfl rfl (openTag_of_mem_head? htag p) halong, hfault⟩
  · have htag' : untilOpenTag (withReturns after) ≠ 0 := by
      intro hzero
      have htake := hcut.take
      rw [hzero, List.take_zero] at htake
      rcases List.take_eq_nil_iff.1 (Text.withReturns_eq_nil_iff.1 htake.symm) with hnone | rfl
      · exact htag hnone
      · exact htag rfl
    rw [ofText_text htag, ofText_text htag'] at halong hfault
    rw [ofText_text htag]
    refine ⟨.both (like_closeTag u) (.both (like_html _ _ _ _) ?_), hfault⟩
    simpa using halong.tail fun hclose => by cases hclose

/-- A doc comment ends at the same cut. -/
theorem sameCut_docBody (body after : Text) :
    SameCut ('*' :: '*' :: (body ++ ['*', '/'] ++ after)) (body.length + 4)
      ((withReturns body).length + 4) := by
  have hinner := SameCut.of_append body (['*', '/'] ++ after)
  have hcloser : SameCut (['*', '/'] ++ after) 2 2 := .of_front (by decide)
  have hbody := hinner.add (by rwa [List.drop_left])
  rw [List.append_assoc]
  exact (hbody.cons (by decide)).cons (by decide)

/-! ### One case of the scan after another -/

section Cases

variable {u rest : Text} {c : Char} {previous : Option Kind}

/-- An open tag in front. -/
theorem sameScan_tag {n : Nat} (hreturn : '\r' ∉ c :: rest)
    (htag : openTagLength? (c :: rest) = some n)
    (hnext : SameScan (u ++ c :: rest.take (n - 1))
      (ofText .code (some .openTag) (rest.drop (n - 1)))
      (ofText .code (some .openTag) (withReturns (rest.drop (n - 1))))) :
    SameScan u
      ((ofText .code (some .openTag) (rest.drop (n - 1))).after [⟨.openTag, c :: rest.take (n - 1)⟩])
      (ofText .html previous (withReturns (c :: rest))) := by
  have hc : c ≠ '\n' := by
    rintro rfl
    rw [openTagLength?_of_ne (by decide)] at htag
    cases htag
  have hrel := openTagLength?_withReturns hreturn
  rw [htag, Text.withReturns_cons hc] at hrel
  generalize htag' : openTagLength? (c :: withReturns rest) = length at hrel
  cases hrel with
  | @some _ n' hcut =>
    have hn := openTagLength?_pos htag
    have hn' := openTagLength?_pos htag'
    obtain ⟨m, rfl⟩ : ∃ m, n = m + 1 := ⟨n - 1, by omega⟩
    obtain ⟨m', rfl⟩ : ∃ m', n' = m' + 1 := ⟨n' - 1, by omega⟩
    have hrest := hcut.of_cons hc
    rw [Text.withReturns_cons hc, ofText_tag htag']
    simp only [Nat.add_sub_cancel] at hnext ⊢
    rw [hrest.drop, hrest.take, ← Text.withReturns_cons hc]
    exact .one (.of_mayBreak rfl (by decide)) hnext

/-- Text outside of code in front. -/
theorem sameScan_html (hreturn : '\r' ∉ c :: rest) (htag : openTagLength? (c :: rest) = none)
    (hnext : SameScan (u ++ c :: rest.take (untilOpenTag rest))
      (ofText .html (some .inlineHtml) (rest.drop (untilOpenTag rest)))
      (ofText .html (some .inlineHtml) (withReturns (rest.drop (untilOpenTag rest))))) :
    SameScan u
      ((ofText .html (some .inlineHtml) (rest.drop (untilOpenTag rest))).after
        [⟨.inlineHtml, c :: rest.take (untilOpenTag rest)⟩])
      (ofText .html previous (withReturns (c :: rest))) := by
  have hcut := untilOpenTag_withReturns fun h => hreturn (List.mem_cons_of_mem c h)
  have hone := SameScan.one (k := .inlineHtml) (.of_mayBreak rfl (by decide)) hnext
  rw [← hcut.drop] at hone
  by_cases hc : c = '\n'
  · subst hc
    rw [Text.withReturns_feed, ← hcut.take] at hone
    rwa [Text.withReturns_feed, ofText_lineEnd]
  · have hrel := openTagLength?_withReturns hreturn
    rw [htag, Text.withReturns_cons hc] at hrel
    rw [Text.withReturns_cons hc, ← hcut.take] at hone
    rw [Text.withReturns_cons hc]
    generalize htag' : openTagLength? (c :: withReturns rest) = length at hrel
    cases hrel with
    | none => rwa [ofText_html htag']

/-- One reading of code that is no doc comment. -/
theorem sameScan_read {k : Kind} {n : Nat} (hreturn : '\r' ∉ rest)
    (hread : read previous c rest = .one k n)
    (hnext : SameScan (u ++ c :: rest.take n)
      (ofText (if k = .closeTag then .html else .code) (previousAfter previous k) (rest.drop n))
      (ofText (if k = .closeTag then .html else .code) (previousAfter previous k)
        (withReturns (rest.drop n)))) :
    SameScan u
      ((ofText (if k = .closeTag then .html else .code) (previousAfter previous k)
        (rest.drop n)).after [⟨k, c :: rest.take n⟩])
      (ofText .code previous (withReturns (c :: rest))) := by
  by_cases hc : c = '\n'
  · subst hc
    rw [(read_lineEnd previous rest).1] at hread
    cases hread
    rw [Text.withReturns_feed, ofText_one (read_lineEnd previous (withReturns rest)).2]
    exact .one (.of_mayBreak rfl (by decide)) hnext
  · have halike := alike_read previous hc hreturn
    rw [hread] at halike
    generalize hread' : read previous c (withReturns rest) = reading at halike
    cases halike with
    | one hcut hinside htext =>
      rw [Text.withReturns_cons hc, ofText_one hread', hcut.drop, hcut.take,
        ← Text.withReturns_cons hc]
      exact .one htext hnext
    | closeTag hmark hrest =>
      subst hmark hrest
      rw [Text.withReturns_cons hc, ofText_one hread']
      exact sameScan_left (fun h => hreturn (List.mem_of_mem_drop h)) hnext

/-- Where one form reads a doc comment, so does the other, and the scan goes on behind its closer. -/
theorem docComment_of_read {body : Text} (hreturn : '\r' ∉ rest)
    (hread : read previous c rest = .docComment body) :
    c = '/' ∧ read previous '/' (withReturns rest) = .docComment (withReturns body) ∧
      ∃ after, rest = '*' :: '*' :: (body ++ ['*', '/'] ++ after) := by
  have hkeeps := keeps_read previous c rest
  rw [hread] at hkeeps
  obtain ⟨rfl, hopens, hclose⟩ := hkeeps
  have halike := alike_read previous (c := '/') (by decide) hreturn
  rw [hread] at halike
  generalize hread' : read previous '/' (withReturns rest) = reading at halike ⊢
  cases halike with
  | docComment body =>
    obtain ⟨t, rfl⟩ : ∃ t, rest = '*' :: '*' :: t := by
      unfold Comment.opensDoc at hopens
      split at hopens
      · exact ⟨_, rfl⟩
      · cases hopens
    obtain ⟨after, rfl⟩ := Comment.untilClose_eq_append hclose
    exact ⟨rfl, rfl, after, rfl⟩

/-- Where one form has a fault, so does the other. -/
theorem sameScan_fault {fault : Fault} (hreturn : '\r' ∉ rest)
    (hread : read previous c rest = .fault fault) :
    SameScan u ⟨[], some fault⟩ (ofText .code previous (withReturns (c :: rest))) := by
  have hc : c ≠ '\n' := by
    rintro rfl
    cases hread
  have halike := alike_read previous hc hreturn
  rw [hread] at halike
  generalize hread' : read previous c (withReturns rest) = reading at halike
  cases halike with
  | fault fault =>
    rw [Text.withReturns_cons hc, ofText, hread']
    exact ⟨.nil u, rfl⟩

end Cases

/-- The two forms of a source are scanned alike, whatever stands before. -/
theorem sameScan_ofText (mode : Mode) (previous : Option Kind) (t : Text) :
    ∀ u, '\r' ∉ t → SameScan u (ofText mode previous t) (ofText mode previous (withReturns t)) := by
  -- The text `u` before the scan grows by what each step takes.
  fun_induction ofText mode previous t with
  | case1 mode previous =>
    intro u _
    rw [Text.withReturns_nil, ofText]
    exact ⟨.nil u, rfl⟩
  | case2 previous c rest n htag ih =>
    intro u hreturn
    refine sameScan_tag hreturn htag (ih _ ?_)
    exact fun h => hreturn (List.mem_cons_of_mem c (List.mem_of_mem_drop h))
  | case3 previous c rest htag ih =>
    intro u hreturn
    refine sameScan_html hreturn htag (ih _ ?_)
    exact fun h => hreturn (List.mem_cons_of_mem c (List.mem_of_mem_drop h))
  | case4 previous c rest k n hread ih =>
    intro u hreturn
    have hplain : '\r' ∉ rest := fun h => hreturn (List.mem_cons_of_mem c h)
    exact sameScan_read hplain hread (ih _ fun h => hplain (List.mem_of_mem_drop h))
  | case5 previous c rest body hread ih =>
    intro u hreturn
    have hplain : '\r' ∉ rest := fun h => hreturn (List.mem_cons_of_mem c h)
    obtain ⟨rfl, hread', after, rfl⟩ := docComment_of_read hplain hread
    have hbody : '\r' ∉ body := fun h => hplain (by simp [h])
    have hnext := ih (u ++ Comment.docSource body) fun h => hplain (List.mem_of_mem_drop h)
    rw [Text.withReturns_cons (by decide), ofText, hread']
    dsimp only
    rw [(sameCut_docBody body after).drop]
    exact ⟨along_doc hbody hnext.along, hnext.fault⟩
  | case6 previous c rest fault hread =>
    intro u hreturn
    exact sameScan_fault (fun h => hreturn (List.mem_cons_of_mem c h)) hread

/-! ## Around text outside of code -/

/-- What may stand right before and right behind text outside of code. -/
structure Follows (a b : Lexeme) : Prop where
  before : b.kind = .inlineHtml → a.kind = .closeTag
  behind : a.kind = .inlineHtml → b.kind = .openTag

/-- A single lexeme of code is no text outside of it. -/
theorem inside_of_read {previous : Option Kind} {c : Char} {rest : Text} {k : Kind} {n : Nat}
    (hreturn : '\r' ∉ rest) (h : read previous c rest = .one k n) : k ≠ .inlineHtml := by
  by_cases hc : c = '\n'
  · subst hc
    rw [(read_lineEnd previous rest).1] at h
    cases h
    decide
  · have halike := alike_read previous hc hreturn
    rw [h] at halike
    generalize read previous c (withReturns rest) = reading at halike
    cases halike with
    | one hcut hinside => exact hinside
    | closeTag => decide

/-- No lexeme of a doc comment is text outside of code. -/
theorem inside_of_mem_doc {body : Text} {l : Lexeme} (h : l ∈ Comment.doc body) :
    l.kind ≠ .inlineHtml := by
  rcases Comment.mem_doc_iff.1 h with rfl | h | rfl
  · decide
  · intro hkind
    have hinner := Comment.isInnerKind_of_mem_docBody h
    rw [hkind] at hinner
    cases hinner
  · decide

/-- Text outside of code stands between tags, whatever the scan. -/
theorem follows_ofText (mode : Mode) (previous : Option Kind) (t : Text) (hreturn : '\r' ∉ t) :
    (ofText mode previous t).lexemes.IsChain Follows ∧
      (mode = .code → ∀ l ∈ (ofText mode previous t).lexemes.head?, l.kind ≠ .inlineHtml) := by
  fun_induction ofText mode previous t with
  | case1 => exact ⟨.nil, fun _ l hl => by cases hl⟩
  | case2 previous c rest n htag ih =>
    obtain ⟨hchain, hhead⟩ := ih fun h => hreturn (List.mem_cons_of_mem c (List.mem_of_mem_drop h))
    refine ⟨hchain.cons fun l hl => ⟨fun h => ?_, fun h => by cases h⟩, fun h => by cases h⟩
    exact absurd h (hhead rfl l hl)
  | case3 previous c rest htag ih =>
    obtain ⟨hchain, -⟩ := ih fun h => hreturn (List.mem_cons_of_mem c (List.mem_of_mem_drop h))
    have hnext := openTag_of_mem_head? (untilOpenTag_drop rest) (some .inlineHtml)
    refine ⟨hchain.cons fun l hl => ⟨fun h => ?_, fun _ => hnext l hl⟩, fun h => by cases h⟩
    rw [hnext l hl] at h
    cases h
  | case4 previous c rest k n hread ih =>
    have hplain : '\r' ∉ rest := fun h => hreturn (List.mem_cons_of_mem c h)
    have hinside := inside_of_read hplain hread
    obtain ⟨hchain, hhead⟩ := ih fun h => hplain (List.mem_of_mem_drop h)
    refine ⟨hchain.cons fun l hl => ⟨fun h => ?_, fun h => absurd h hinside⟩, fun _ l hl => ?_⟩
    · by_contra hclose
      rw [dif_neg hclose] at hhead hl
      exact hhead rfl l hl h
    · obtain rfl := Option.some.inj hl
      exact hinside
  | case5 previous c rest body hread ih =>
    obtain ⟨hchain, hhead⟩ := ih fun h => hreturn (List.mem_cons_of_mem c (List.mem_of_mem_drop h))
    have hdoc : (Comment.doc body).IsChain Follows := by
      apply List.Pairwise.isChain
      refine List.pairwise_of_forall_mem_list fun a ha b hb => ?_
      exact ⟨fun h => absurd h (inside_of_mem_doc hb), fun h => absurd h (inside_of_mem_doc ha)⟩
    refine ⟨hdoc.append hchain fun a ha b hb => ?_, fun _ l hl => ?_⟩
    · exact ⟨fun h => absurd h (hhead rfl b hb),
        fun h => absurd h (inside_of_mem_doc (List.mem_of_mem_getLast? ha))⟩
    · obtain rfl := Option.some.inj hl
      decide
  | case6 => exact ⟨.nil, fun _ l hl => by cases hl⟩

end Scan

end PhpLint

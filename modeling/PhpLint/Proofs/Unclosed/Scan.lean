import PhpLint.Proofs.Unclosed.Reading

/-!
# Scans that break off

A scan that meets a fault has read lexemes up to the place where the open construct starts.  Each of
these readings ended before that place, and a reading that ends before the start of a construct does not
look past it.  So the text in front is scanned alone as it is scanned there, to the same lexemes, and
without a fault (`exists_breaksAt`).

Outside of code it is the search for an open tag that has to stop at the same place.  The tag is there
when the text ends behind it, and a tag that stands in a part of the text stands in all of it.
-/

namespace PhpLint.Scan

variable {mode : Mode} {previous : Option Kind} {front rest u v w z : Text} {c m : Char} {f : Fault}
  {n : Nat}

/-! ## Open tags in front of a place -/

/-- An open tag in a part of the text stands in all of it. -/
theorem openTagLength?_eq_none_of_append (h : openTagLength? (u ++ v) = none) :
    openTagLength? u = none := by
  have hecho : Text.startsWith ['<', '?', '='] u = true →
      Text.startsWith ['<', '?', '='] (u ++ v) = true := by
    intro hstart
    rw [Text.startsWith_iff] at hstart ⊢
    exact hstart.trans (List.prefix_append u v)
  have hword : Text.foldCase (u.take 5) = "<?php".toList →
      Text.foldCase ((u ++ v).take 5) = "<?php".toList := by
    intro hfold
    have hlength := congrArg List.length hfold
    rw [Text.length_foldCase, List.length_take] at hlength
    have hfive : "<?php".toList.length = 5 := rfl
    have hle : 5 ≤ u.length := by omega
    rw [List.take_append_of_le_length hle, hfold]
  unfold openTagLength? at h ⊢
  split at h
  · cases h
  · next hnoecho =>
    split at h
    · split at h <;> cases h
    · next hnoword => rw [if_neg fun h => hnoecho (hecho h), if_neg fun h => hnoword (hword h)]

/-- Of what follows the word of an open tag no more than two characters count, and no stop is one of
them. -/
theorem tagEnd_stop (hm : IsStop m) (v z : Text) :
    (match v ++ m :: z with
      | '\r' :: '\n' :: _ => some 7
      | c :: _ => some (if isBlank c || c == '\n' then 6 else 5)
      | [] => some 5) =
    match v with
      | '\r' :: '\n' :: _ => some 7
      | c :: _ => some (if isBlank c || c == '\n' then 6 else 5)
      | [] => some 5 := by
  have hblank : isBlank m = false := hm.eq_false (by decide)
  have hfeed : m ≠ '\n' := hm.ne (by decide)
  have hreturn : m ≠ '\r' := hm.ne (by decide)
  cases v with
  | nil => grind
  | cons d v => cases v <;> grind

/-- An open tag that ends before a stop is the one that is read if the text ends there. -/
theorem openTagLength?_cut (hm : IsStop m) (h : openTagLength? (u ++ m :: z) = some n)
    (hn : n ≤ u.length) : openTagLength? u = some n := by
  unfold openTagLength? at h ⊢
  split at h
  · next hecho =>
    obtain rfl := Option.some.inj h
    have hlength : ['<', '?', '='].length ≤ u.length := hn
    rw [Text.startsWith_append hlength] at hecho
    rw [if_pos hecho]
  · next hnoecho =>
    have hshort : ¬Text.startsWith ['<', '?', '='] u = true := by
      intro hstart
      rw [Text.startsWith_iff] at hstart hnoecho
      exact hnoecho (hstart.trans (List.prefix_append u _))
    obtain ⟨hword, h⟩ := Option.ite_none_right_eq_some.1 h
    have hle : 5 ≤ u.length := by
      refine Nat.le_trans ?_ hn
      split at h <;> obtain rfl := Option.some.inj h
      · omega
      · split <;> omega
      · omega
    rw [List.take_append_of_le_length hle] at hword
    rw [List.drop_append_of_le_length hle] at h
    rw [if_neg hshort, if_pos hword, ← h]
    exact (tagEnd_stop hm (u.drop 5) z).symm

/-- The search for an open tag stops where it stops when less follows the tag. -/
theorem untilOpenTag_cut (hn : untilOpenTag (w ++ v) = n) (hle : n ≤ w.length)
    (htag : (openTagLength? (w.drop n)).isSome = true) : untilOpenTag w = n := by
  induction w generalizing n with
  | nil =>
    rw [List.length_nil, Nat.le_zero] at hle
    rw [hle]
    rfl
  | cons c w ih =>
    rw [List.cons_append, untilOpenTag] at hn
    rw [untilOpenTag]
    split at hn
    · next hsome =>
      subst hn
      rw [List.drop_zero] at htag
      rw [if_pos htag]
    · next hnone =>
      subst hn
      have hnone' : openTagLength? (c :: w) = none :=
        openTagLength?_eq_none_of_append (v := v) (by simpa using hnone)
      rw [if_neg (by simp [hnone']), ih rfl (Nat.le_of_succ_le_succ hle) htag]

/-- How long the search for an open tag is, makes no difference to the scan. -/
theorem fault_ofText_drop (p q : Option Kind) (t : Text) :
    (ofText .html p (t.drop (untilOpenTag t))).fault = (ofText .html q t).fault := by
  by_cases h : untilOpenTag t = 0
  · rw [h, List.drop_zero, ofText_html_previous p q]
  · rw [ofText_text h, fault_after, ofText_html_previous p]

/-! ## Where a scan breaks off -/

/-- The scan of a text breaks off behind a part of it that is scanned by itself to the same lexemes. -/
structure BreaksAt (mode : Mode) (previous : Option Kind) (front : Text) (c : Char) (rest : Text)
    (f : Fault) : Prop where
  alone : (ofText mode previous front).fault = none
  lexemes : (ofText mode previous (front ++ c :: rest)).lexemes = (ofText mode previous front).lexemes
  fault : (ofText mode previous (front ++ c :: rest)).fault = some f
  stop : ∃ p, read p c rest = .fault f

/-- What is left behind some characters, with these characters in front again. -/
theorem exists_front_of_drop (h : rest.drop n = front ++ m :: z) :
    ∃ w, rest = w ++ m :: z ∧ n ≤ w.length ∧ w.take n = rest.take n ∧ w.drop n = front := by
  have hlength := congrArg List.length h
  rw [List.length_drop, List.length_append, List.length_cons] at hlength
  have htake : (rest.take n).length = n := by
    rw [List.length_take]
    omega
  refine ⟨rest.take n ++ front, ?_, ?_, ?_, ?_⟩
  · rw [List.append_assoc, ← h, List.take_append_drop]
  · rw [List.length_append, htake]
    omega
  · rw [List.take_left' htake]
  · rw [List.drop_left' htake]

/-- A step in front of a scan that breaks off, if it is the same step where the text ends. -/
theorem BreaksAt.after {mode' : Mode} {previous' : Option Kind} {t : Text}
    (h : BreaksAt mode' previous' front m z f) (ls : List Lexeme)
    (hfront : ofText mode previous t = (ofText mode' previous' front).after ls)
    (hall : ofText mode previous (t ++ m :: z) =
      (ofText mode' previous' (front ++ m :: z)).after ls) :
    BreaksAt mode previous t m z f := by
  refine ⟨?_, ?_, ?_, h.stop⟩
  · rw [hfront]
    exact h.alone
  · rw [hfront, hall, lexemes_after, lexemes_after, h.lexemes]
  · rw [hall]
    exact h.fault

/-- An open tag in front of a place where the scan breaks off ends before that place. -/
theorem BreaksAt.isSome_openTagLength? (h : BreaksAt .html previous front m z f)
    (htag : untilOpenTag (front ++ m :: z) = 0) : (openTagLength? front).isSome = true := by
  have hlexemes := h.lexemes
  have hkind := openTag_of_mem_head? htag previous
  obtain ⟨d, t, ht⟩ : ∃ d t, front ++ m :: z = d :: t :=
    List.exists_cons_of_ne_nil (by simp)
  rw [hlexemes] at hkind
  rw [ht] at hlexemes htag
  cases htag' : openTagLength? (d :: t) with
  | none => simp [untilOpenTag, htag'] at htag
  | some n =>
    -- The scan of the text starts with the tag, so the scan of the front does.
    rw [ofText_tag htag', lexemes_after, List.singleton_append] at hlexemes
    cases front with
    | nil => simp [ofText] at hlexemes
    | cons c w =>
      cases hfront : openTagLength? (c :: w) with
      | some n => rfl
      | none =>
        rw [ofText_html hfront] at hkind
        cases hkind _ rfl

/-- A scan breaks off at a stop that is no question mark. -/
theorem isStop_of_breaksAt (h : BreaksAt mode previous front m z f) : IsStop m ∧ m ≠ '?' := by
  obtain ⟨p, hread⟩ := h.stop
  exact isStop_of_read hread

/-- **A scan breaks off where its fault starts.**  A scan that meets a fault has scanned the text in
front of it as that text is scanned alone. -/
theorem exists_breaksAt {t : Text} (h : (ofText mode previous t).fault = some f) :
    ∃ front c rest, t = front ++ c :: rest ∧ BreaksAt mode previous front c rest f := by
  fun_induction ofText mode previous t with
  | case1 => cases h
  | case2 previous c rest length hlength ih =>
    obtain ⟨front, m, z, hdrop, hbreaks⟩ := ih h
    obtain ⟨w, rfl, hn, htake, hfront⟩ := exists_front_of_drop hdrop
    have hcut : openTagLength? (c :: w) = some length := by
      refine openTagLength?_cut (isStop_of_breaksAt hbreaks).1 hlength ?_
      rw [List.length_cons]
      omega
    refine ⟨c :: w, m, z, rfl, hbreaks.after [⟨.openTag, c :: w.take (length - 1)⟩] ?_ ?_⟩
    · rw [ofText_tag hcut, hfront]
    · rw [List.cons_append, ofText_tag hlength, hdrop, htake]
  | case3 previous c rest hlength ih =>
    obtain ⟨front, m, z, hdrop, hbreaks⟩ := ih h
    have htag := hbreaks.isSome_openTagLength? (hdrop ▸ untilOpenTag_drop rest)
    obtain ⟨w, rfl, hn, htake, hfront⟩ := exists_front_of_drop hdrop
    have hcut : openTagLength? (c :: w) = none :=
      openTagLength?_eq_none_of_append (v := m :: z) hlength
    have huntil := untilOpenTag_cut rfl hn (hfront ▸ htag)
    refine ⟨c :: w, m, z, rfl, hbreaks.after
      [⟨.inlineHtml, c :: w.take (untilOpenTag (w ++ m :: z))⟩] ?_ ?_⟩
    · rw [ofText_html hcut, huntil, hfront]
    · rw [List.cons_append, ofText_html hlength, hdrop, htake]
  | case4 previous c rest kind more hread ih =>
    obtain ⟨front, m, z, hdrop, hbreaks⟩ := ih h
    rw [dite_eq_ite] at hbreaks
    obtain ⟨w, rfl, hn, htake, hfront⟩ := exists_front_of_drop hdrop
    obtain ⟨hstop, hmark⟩ := isStop_of_breaksAt hbreaks
    have hcut : read previous c w = .one kind more := by
      rw [steady_cut hstop hmark previous c w z (by rw [hread]; exact hn), hread]
    refine ⟨c :: w, m, z, rfl, hbreaks.after [⟨kind, c :: w.take more⟩] ?_ ?_⟩
    · rw [ofText_one hcut, hfront]
    · rw [List.cons_append, ofText_one hread, hdrop, htake]
  | case5 previous c rest body hread ih =>
    obtain ⟨front, m, z, hdrop, hbreaks⟩ := ih h
    obtain ⟨w, rfl, hn, htake, hfront⟩ := exists_front_of_drop hdrop
    obtain ⟨hstop, hmark⟩ := isStop_of_breaksAt hbreaks
    have hcut : read previous c w = .docComment body := by
      rw [steady_cut hstop hmark previous c w z (by rw [hread]; exact hn), hread]
    refine ⟨c :: w, m, z, rfl, hbreaks.after (Comment.doc body) ?_ ?_⟩
    · rw [ofText_doc hcut, hfront]
    · rw [List.cons_append, ofText_doc hread, hdrop]
  | case6 previous c rest fault hread =>
    obtain rfl := Option.some.inj h
    refine ⟨[], c, rest, rfl, ?_, ?_, ?_, previous, hread⟩
    · rw [ofText]
    · rw [List.nil_append, ofText, ofText, hread]
    · rw [List.nil_append, ofText, hread]

end PhpLint.Scan

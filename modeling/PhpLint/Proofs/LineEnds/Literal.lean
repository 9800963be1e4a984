import PhpLint.Proofs.Lexing.Parts
import PhpLint.Proofs.LineEnds.Text

/-!
# Comments and string literals with returns

The searches for the end of a comment and of a string answer the same cut in both forms of a text.  A
line comment stops before the return of its line's end, and a heredoc closes where the line feed before
its marker starts a line, whatever stands before that line feed.
-/

namespace PhpLint

open Text (withReturns SameCut)

/-- Answers that are related stay so under functions that keep the relation. -/
theorem Option.rel_map {α β γ δ : Type} {r : α → β → Prop} {r' : γ → δ → Prop} {f : α → γ}
    {g : β → δ} {o : Option α} {o' : Option β} (h : Option.Rel r o o')
    (hkeep : ∀ a b, r a b → r' (f a) (g b)) : Option.Rel r' (o.map f) (o'.map g) := by
  cases h with
  | some h => exact .some (hkeep _ _ h)
  | none => exact .none

namespace Text.SameCut

/-- The place between two parts of a text is a cut. -/
theorem of_append (u v : Text) : SameCut (u ++ v) u.length (withReturns u).length :=
  ⟨by rw [withReturns_append, List.take_left, List.take_left],
    by rw [withReturns_append, List.drop_left, List.drop_left]⟩

end Text.SameCut

/-! ## Comments -/

namespace Comment

/-- In the form with returns, the text before a line end may have the return at its end. -/
theorem untilLineEnd_withReturns (t : Text) :
    untilLineEnd (withReturns t) = untilLineEnd t ∨
      untilLineEnd (withReturns t) = untilLineEnd t ++ ['\r'] := by
  induction t with
  | nil => exact .inl rfl
  | cons c t ih =>
    by_cases hc : c = '\n'
    · subst hc
      exact .inr (by simp [untilLineEnd])
    · have hnext := Text.head?_withReturns_eq_some_iff (c := '>') (by decide) (by decide) t
      rw [Text.withReturns_cons hc, untilLineEnd, untilLineEnd, if_neg hc, if_neg hc]
      simp only [beq_iff_eq, Bool.and_eq_true, decide_eq_true_eq, hnext]
      by_cases hclose : c = '?' ∧ t.head? = some '>'
      · rw [if_pos hclose, if_pos hclose]
        exact .inl rfl
      · rw [if_neg hclose, if_neg hclose]
        exact ih.imp (congrArg (c :: ·)) (congrArg (c :: ·))

/-- A line comment takes the same text in both forms. -/
theorem lineTail_withReturns {t : Text} (h : '\r' ∉ t) :
    lineTail (withReturns t) = untilLineEnd t ∧ lineTail t = untilLineEnd t := by
  have hplain : Text.dropReturn (untilLineEnd t) = untilLineEnd t :=
    Text.dropReturn_of_not_mem fun hmem => h ((untilLineEnd_isPrefix t).subset hmem)
  unfold lineTail
  refine ⟨?_, hplain⟩
  rcases untilLineEnd_withReturns t with heq | heq
  · rw [heq, hplain]
  · rw [heq, Text.dropReturn_append]

/-- A block comment is closed at the same place, and its body has both forms. -/
theorem untilClose_withReturns (t : Text) :
    untilClose (withReturns t) = (untilClose t).map withReturns := by
  induction t with
  | nil => rfl
  | cons c t ih =>
    by_cases hc : c = '\n'
    · subst hc
      simp [untilClose, ih, Function.comp_def]
    · have hnext := Text.head?_withReturns_eq_some_iff (c := '/') (by decide) (by decide) t
      rw [Text.withReturns_cons hc, untilClose, untilClose]
      simp only [beq_iff_eq, Bool.and_eq_true, decide_eq_true_eq, hnext]
      by_cases hclose : c = '*' ∧ t.head? = some '/'
      · rw [if_pos hclose, if_pos hclose]
        rfl
      · rw [if_neg hclose, if_neg hclose, ih, Option.map_map, Option.map_map]
        congr 1
        funext body
        exact (Text.withReturns_cons hc body).symm

/-- A doc comment opens in both forms or in none. -/
theorem opensDoc_withReturns (t : Text) : opensDoc (withReturns t) = opensDoc t := by
  have hstart : Text.stripStart ['*', '*'] (withReturns t) = _ :=
    Text.stripStart_withReturns (by decide) (by decide) t
  rw [opensDoc_eq, opensDoc_eq, hstart]
  cases Text.stripStart ['*', '*'] t with
  | none => rfl
  | some rest => exact Text.any_head?_withReturns (by decide) rest

end Comment

/-! ## String literals -/

namespace Literal

/-- A string ends at the same cut. -/
theorem quotedTail?_withReturns {quote : Char} (hfeed : quote ≠ '\n') (hreturn : quote ≠ '\r')
    (t : Text) : Option.Rel (SameCut t) (quotedTail? quote t) (quotedTail? quote (withReturns t)) := by
  have hend (t : Text) :
      quotedTail? quote ('\n' :: t) = (quotedTail? quote t).map (· + 1) := by
    rw [quotedTail?_cons (by decide), if_neg hfeed.symm]
  fun_induction quotedTail? quote t with
  | case1 => exact .none
  | case2 => exact .none
  | case3 d t ih =>
    by_cases hd : d = '\n'
    · subst hd
      rw [Text.withReturns_cons (by decide), Text.withReturns_feed, quotedTail?, hend, Option.map_map]
      exact Option.rel_map ih fun n n' h => h.feed.cons (by decide)
    · rw [Text.withReturns_cons (by decide), Text.withReturns_cons hd, quotedTail?]
      exact Option.rel_map ih fun n n' h => (h.cons hd).cons (by decide)
  | case4 t hsingle hpair =>
    have hquote := ne_backslash_of_alone hsingle hpair
    rw [Text.withReturns_cons hfeed, quotedTail?_cons hquote, if_pos rfl]
    exact .some ((SameCut.zero t).cons hfeed)
  | case5 c t hsingle hpair hc ih =>
    have hescape := ne_backslash_of_alone hsingle hpair
    by_cases hline : c = '\n'
    · subst hline
      rw [Text.withReturns_feed, quotedTail?_cons (by decide), if_neg hreturn.symm, hend,
        Option.map_map]
      exact Option.rel_map ih fun n n' h => h.feed
    · rw [Text.withReturns_cons hline, quotedTail?_cons hescape, if_neg hc]
      exact Option.rel_map ih fun n n' h => h.cons hline

/-- A line end is passed up to the same cut. -/
theorem lineEnd?_withReturns {t : Text} (h : '\r' ∉ t) :
    Option.Rel (SameCut t) (lineEnd? t) (lineEnd? (withReturns t)) := by
  cases t with
  | nil => exact .none
  | cons c t =>
    rw [List.mem_cons, not_or] at h
    by_cases hc : c = '\n'
    · subst hc
      rw [Text.withReturns_feed]
      exact .some (SameCut.zero t).feed
    · have hnone (t : Text) : lineEnd? (c :: t) = none := by
        unfold lineEnd?
        split
        · next heq => exact absurd (List.cons.inj heq).1 hc
        · next heq => exact absurd (List.cons.inj heq).1.symm h.1
        · rfl
      rw [Text.withReturns_cons hc, hnone, hnone]
      exact .none

/-- A closing quote is passed up to the same cut. -/
theorem afterQuote?_withReturns {quote : Option Char} (hquote : ∀ q ∈ quote, isMarkerQuote q = true)
    (t : Text) :
    afterQuote? quote (withReturns t) = (afterQuote? quote t).map withReturns ∧
      ∀ after, afterQuote? quote t = some after →
        SameCut t (if quote.isSome then 1 else 0) (if quote.isSome then 1 else 0) ∧
          t.drop (if quote.isSome then 1 else 0) = after := by
  cases quote with
  | none =>
    refine ⟨rfl, fun after h => ?_⟩
    obtain rfl := Option.some.inj h
    exact ⟨SameCut.zero t, rfl⟩
  | some q =>
    have hfeed : q ≠ '\n' := by
      rintro rfl
      exact absurd (hquote '\n' rfl) (by decide)
    have hreturn : q ≠ '\r' := by
      rintro rfl
      exact absurd (hquote '\r' rfl) (by decide)
    have hhead := Text.head?_withReturns_eq_some_iff hfeed hreturn t
    have hsome (t : Text) :
        afterQuote? (some q) t = if t.head? = some q then some (t.drop 1) else none := rfl
    rw [hsome, hsome]
    by_cases hclosed : t.head? = some q
    · obtain ⟨rest, rfl⟩ := List.head?_eq_some_iff.1 hclosed
      have hcut : SameCut (q :: rest) 1 1 := (SameCut.zero rest).cons hfeed
      refine ⟨?_, fun after h => ?_⟩
      · rw [if_pos (hhead.2 hclosed), if_pos hclosed, hcut.drop]
        rfl
      · rw [if_pos hclosed] at h
        exact ⟨hcut, Option.some.inj h⟩
    · refine ⟨?_, fun after h => ?_⟩
      · rw [if_neg (mt hhead.1 hclosed), if_neg hclosed]
        rfl
      · rw [if_neg hclosed] at h
        cases h

/-- Two headers with one marker, made of the characters of a name, up to the same cut. -/
structure SameHeader (t : Text) (a b : Text × Nat) : Prop where
  marker : b.1 = a.1
  name : a.1.all isNameChar = true
  cut : SameCut t a.2 b.2

/-- Behind the blanks a header has the same marker and ends at the same cut. -/
theorem headerFrom_withReturns {t name : Text} {front : Nat} {quote : Option Char}
    (hquote : ∀ q ∈ quote, isMarkerQuote q = true) (hname : t.drop front = name)
    (hfront : SameCut t front front) (hreturn : '\r' ∉ name) :
    Option.Rel (SameHeader t) (headerFrom front quote name)
      (headerFrom front quote (withReturns name)) := by
  have hmarker : (withReturns name).takeWhile isNameChar = name.takeWhile isNameChar :=
    Text.takeWhile_withReturns (by decide) (by decide) name
  have hcut := SameCut.of_takeWhile (p := isNameChar) (by decide) name
  have hstart := Text.any_head?_withReturns (p := isNameStart) (by decide) name
  subst hname
  unfold headerFrom
  dsimp only
  rw [hmarker, hstart, hcut.drop]
  cases (t.drop front).head?.any isNameStart with
  | false => exact .none
  | true =>
    generalize hrest : (t.drop front).drop ((t.drop front).takeWhile isNameChar).length = rest
    obtain ⟨hafter', hafter⟩ := afterQuote?_withReturns hquote rest
    rw [hafter', if_pos rfl, if_pos rfl]
    cases hclosed : afterQuote? quote rest with
    | none => exact .none
    | some after =>
      obtain ⟨hclose, hdrop⟩ := hafter after hclosed
      have hplain : '\r' ∉ after := by
        intro h
        rw [← hdrop, ← hrest] at h
        exact hreturn (List.mem_of_mem_drop (List.mem_of_mem_drop h))
      rw [← hrest, List.drop_drop] at hclose
      have hbefore := (hfront.add hcut).add hclose
      have hbehind : t.drop (front + ((t.drop front).takeWhile isNameChar).length +
          if quote.isSome then 1 else 0) = after := by
        rw [← List.drop_drop, ← List.drop_drop, hrest, hdrop]
      rw [Option.map_some, Option.bind_some, Option.bind_some]
      apply Option.rel_map (lineEnd?_withReturns hplain)
      intro n n' hending
      exact ⟨rfl, List.all_takeWhile, hbefore.add (hbehind.symm ▸ hending)⟩

/-- A header has the same marker and ends at the same cut. -/
theorem heredocHeader?_withReturns {t : Text} (h : '\r' ∉ t) :
    Option.Rel (SameHeader t) (heredocHeader? t) (heredocHeader? (withReturns t)) := by
  have hcut := SameCut.of_takeWhile (p := isBlank) (by decide) t
  have hblanks : (withReturns t).takeWhile isBlank = t.takeWhile isBlank :=
    Text.takeWhile_withReturns (by decide) (by decide) t
  rw [heredocHeader?_eq, heredocHeader?_eq]
  dsimp only
  rw [hblanks, hcut.drop]
  generalize hname : t.drop (t.takeWhile isBlank).length = name
  have hplain : '\r' ∉ name := by
    rw [← hname]
    exact fun hmem => h (List.mem_of_mem_drop hmem)
  cases name with
  | nil => exact headerFrom_withReturns (by simp) hname hcut hplain
  | cons c rest =>
    by_cases hc : c = '\n'
    · subst hc
      rw [Text.withReturns_feed]
      exact headerFrom_withReturns (by simp) hname hcut hplain
    · rw [Text.withReturns_cons hc, List.head?_cons, List.head?_cons]
      by_cases hquote : isMarkerQuote c = true
      · rw [Option.filter_some_pos hquote]
        have hnext := hcut.add (m := 1) (hname.symm ▸ (SameCut.zero rest).cons hc)
        refine headerFrom_withReturns (by simpa using hquote) ?_ hnext ?_
        · rw [← List.drop_drop, hname]
        · exact fun hmem => hplain (List.mem_cons_of_mem c hmem)
      · rw [Option.filter_some_neg (by simpa using hquote), ← Text.withReturns_cons hc]
        exact headerFrom_withReturns (by simp) hname hcut hplain

/-- A marker's characters are no line ends. -/
theorem ends_notMem {marker : Text} (h : marker.all isNameChar = true) :
    '\n' ∉ marker ∧ '\r' ∉ marker := by
  rw [List.all_eq_true] at h
  exact ⟨fun hmem => absurd (h _ hmem) (by decide), fun hmem => absurd (h _ hmem) (by decide)⟩

/-- A line closes a heredoc in both forms or in none. -/
theorem heredocClose?_withReturns {marker : Text} (h : marker.all isNameChar = true) (t : Text) :
    heredocClose? marker (withReturns t) = heredocClose? marker t := by
  obtain ⟨hfeed, hreturn⟩ := ends_notMem h
  have hcut := SameCut.of_takeWhile (p := isBlank) (by decide) t
  have hblanks : (withReturns t).takeWhile isBlank = t.takeWhile isBlank :=
    Text.takeWhile_withReturns (by decide) (by decide) t
  unfold heredocClose?
  dsimp only
  rw [hblanks, hcut.drop, Text.stripStart_withReturns hfeed hreturn]
  cases Text.stripStart marker (t.drop (t.takeWhile isBlank).length) with
  | none => rfl
  | some after =>
    simp only [Option.map_some, Text.any_head?_withReturns (p := isNameChar) (by decide)]

/-- What closes a heredoc lies on one line. -/
theorem feed_notMem_of_heredocClose? {marker t : Text} {n : Nat} (h : marker.all isNameChar = true)
    (hclose : heredocClose? marker t = some n) : '\n' ∉ t.take n := by
  unfold heredocClose? at hclose
  dsimp only at hclose
  cases hafter : Text.stripStart marker (t.drop (t.takeWhile isBlank).length) with
  | none =>
    rw [hafter] at hclose
    cases hclose
  | some after =>
    rw [hafter] at hclose
    obtain rfl : (t.takeWhile isBlank).length + marker.length = n := by
      by_cases hname : after.head?.any isNameChar = true
      · simp [hname] at hclose
      · simpa [hname] using hclose
    rw [List.take_add, Text.stripStart_eq_some_iff.1 hafter, List.take_left, List.mem_append, not_or]
    refine ⟨?_, (ends_notMem h).1⟩
    rw [← List.prefix_iff_eq_take.1 (List.takeWhile_prefix isBlank)]
    exact Text.notMem_takeWhile (by decide) t

/-- A heredoc ends at the same cut. -/
theorem heredocTail?_withReturns {marker : Text} (h : marker.all isNameChar = true)
    (lineStart : Bool) (t : Text) :
    Option.Rel (SameCut t) (heredocTail? marker lineStart t)
      (heredocTail? marker lineStart (withReturns t)) := by
  induction t generalizing lineStart with
  | nil => exact .none
  | cons c t ih =>
    have hclose : (if lineStart then heredocClose? marker (withReturns (c :: t)) else none) =
        if lineStart then heredocClose? marker (c :: t) else none := by
      rw [heredocClose?_withReturns h]
    by_cases hc : c = '\n'
    · subst hc
      rw [Text.withReturns_feed] at hclose ⊢
      rw [heredocTail?, heredocTail?, hclose]
      cases hfound : if lineStart then heredocClose? marker ('\n' :: t) else none with
      | some n =>
        rw [Option.ite_none_right_eq_some] at hfound
        have hcut := SameCut.of_not_mem (feed_notMem_of_heredocClose? h hfound.2)
        exact .some hcut
      | none =>
        have htail (t : Text) : heredocTail? marker ('\r' == '\n') ('\n' :: t) =
            (heredocTail? marker ('\n' == '\n') t).map (· + 1) := by
          rw [heredocTail?, if_neg (by decide)]
        dsimp only
        rw [htail, Option.map_map]
        exact Option.rel_map (ih _) fun n n' hcut => hcut.feed
    · rw [Text.withReturns_cons hc] at hclose ⊢
      rw [heredocTail?, heredocTail?, hclose]
      cases hfound : if lineStart then heredocClose? marker (c :: t) else none with
      | some n =>
        rw [Option.ite_none_right_eq_some] at hfound
        have hcut := SameCut.of_not_mem (feed_notMem_of_heredocClose? h hfound.2)
        exact .some hcut
      | none => exact Option.rel_map (ih _) fun n n' hcut => hcut.cons hc

/-- Outcomes of reading a heredoc: the same cut, or the same fault. -/
inductive SameOutcome (t : Text) : Except Fault Nat → Except Fault Nat → Prop
  | ok {n n' : Nat} (hcut : SameCut t n n') : SameOutcome t (.ok n) (.ok n')
  | error (fault : Fault) : SameOutcome t (.error fault) (.error fault)

/-- A heredoc is read with the same outcome. -/
theorem heredoc?_withReturns {rest : Text} (h : '\r' ∉ rest) :
    Option.Rel (SameOutcome rest) (heredoc? rest) (heredoc? (withReturns rest)) := by
  rw [heredoc?_eq, heredoc?_eq, Text.stripStart_withReturns (by decide) (by decide)]
  cases hsigns : Text.stripStart ['<', '<'] rest with
  | none => exact .none
  | some t =>
    obtain rfl := Text.stripStart_eq_some_iff.1 hsigns
    have hplain : '\r' ∉ t := fun hmem => h (List.mem_append_right _ hmem)
    rw [Option.map_some, Option.bind_some, Option.bind_some]
    apply Option.rel_map (heredocHeader?_withReturns hplain)
    intro header header' hheader
    have hsigns : SameCut (['<', '<'] ++ t) 2 2 := SameCut.of_front (by decide)
    have hcut := hsigns.add hheader.cut
    rw [hheader.marker, hheader.cut.drop]
    have htail := heredocTail?_withReturns hheader.name true (t.drop header.2)
    revert htail
    generalize heredocTail? header.1 true (t.drop header.2) = tail
    generalize heredocTail? header.1 true (withReturns (t.drop header.2)) = tail'
    intro htail
    cases htail with
    | none => exact .error _
    | some hend => exact .ok (hcut.add (by rwa [← List.drop_drop]))

end Literal

end PhpLint

import Mathlib.Data.List.Basic
import PhpLint.Text

/-!
# The lines of a text

A piece between two occurrences of a character is known by what stands before and behind it
(`IsPiece`), and its number is how often the character stands before (`splitOn_of_isPiece`,
`exists_isPiece`).  The lines of a text are its pieces between line feeds, a carriage return at the
end of a piece left out; an empty last piece is no line.
-/

namespace PhpLint.Text

variable {separator : Char} {t before piece after line : Text} {k : Nat}

/-- A separator parts the pieces of a text. -/
theorem splitOn_append_cons (s t : Text) :
    splitOn separator (s ++ separator :: t) = splitOn separator s ++ splitOn separator t := by
  induction s with
  | nil => simp [splitOn]
  | cons c s ih =>
    rw [List.cons_append, splitOn, splitOn, ih]
    by_cases hc : c = separator
    · rw [if_pos hc, if_pos hc]
      rfl
    · rw [if_neg hc, if_neg hc]
      cases hs : splitOn separator s with
      | nil => exact absurd hs (splitOn_ne_nil separator s)
      | cons piece pieces => rfl

/-- A text without separators is one piece. -/
theorem splitOn_of_not_mem {t : Text} (h : separator ∉ t) : splitOn separator t = [t] := by
  induction t with
  | nil => rfl
  | cons c t ih =>
    rw [List.mem_cons, not_or] at h
    rw [splitOn, if_neg (Ne.symm h.1), ih h.2]

/-- Text without the separator in front belongs to the first piece. -/
theorem splitOn_append {front : Text} {pieces : List Text} (h : separator ∉ front)
    (ht : splitOn separator t = piece :: pieces) :
    splitOn separator (front ++ t) = (front ++ piece) :: pieces := by
  induction front with
  | nil => exact ht
  | cons c front ih =>
    rw [List.mem_cons, not_or] at h
    rw [List.cons_append, splitOn, if_neg (Ne.symm h.1), ih h.2]
    rfl

/-- Pieces that do not hold the separator come back when they are joined and split again. -/
theorem splitOn_joinWith {pieces : List Text} (hne : pieces ≠ [])
    (hpieces : ∀ piece ∈ pieces, separator ∉ piece) :
    splitOn separator (joinWith [separator] pieces) = pieces := by
  induction pieces with
  | nil => exact absurd rfl hne
  | cons piece pieces ih =>
    have hpiece : separator ∉ piece := hpieces piece List.mem_cons_self
    cases pieces with
    | nil => exact splitOn_of_not_mem hpiece
    | cons next pieces =>
      have hrest := ih (List.cons_ne_nil next pieces)
        fun p hp => hpieces p (List.mem_cons_of_mem piece hp)
      have hjoin : joinWith [separator] (piece :: next :: pieces) =
          piece ++ separator :: joinWith [separator] (next :: pieces) := by
        simp [joinWith]
      rw [hjoin, splitOn_append_cons, splitOn_of_not_mem hpiece, hrest]
      rfl

/-- A text has one piece more than separators. -/
theorem length_splitOn (t : Text) : (splitOn separator t).length = t.count separator + 1 := by
  induction t with
  | nil => rfl
  | cons c t ih =>
    rw [splitOn]
    by_cases hc : c = separator
    · rw [if_pos hc, hc, List.count_cons_self, List.length_cons, ih]
    · rw [if_neg hc, List.count_cons_of_ne hc]
      cases hs : splitOn separator t with
      | nil => exact absurd hs (splitOn_ne_nil separator t)
      | cons piece pieces =>
        rw [hs] at ih
        exact ih

/-- A piece of a text: no separator stands in it, and one on either side unless the text ends. -/
structure IsPiece (separator : Char) (t before piece after : Text) : Prop where
  text : t = before ++ piece ++ after
  free : separator ∉ piece
  start : before = [] ∨ ∃ front, before = front ++ [separator]
  stop : after = [] ∨ ∃ back, after = separator :: back

/-- The number of a piece is how often the separator stands before it. -/
theorem splitOn_of_isPiece (h : IsPiece separator t before piece after) :
    (splitOn separator t)[before.count separator]? = some piece := by
  have hhead : ∃ pieces, splitOn separator (piece ++ after) = piece :: pieces := by
    rcases h.stop with rfl | ⟨back, rfl⟩
    · rw [List.append_nil, splitOn_of_not_mem h.free]
      exact ⟨[], rfl⟩
    · rw [splitOn_append_cons, splitOn_of_not_mem h.free]
      exact ⟨_, rfl⟩
  obtain ⟨pieces, hpieces⟩ := hhead
  rw [h.text, List.append_assoc]
  rcases h.start with rfl | ⟨front, rfl⟩
  · rw [List.nil_append, hpieces]
    rfl
  · have hlength : (splitOn separator front).length = front.count separator + 1 :=
      length_splitOn front
    rw [List.append_assoc, List.singleton_append, splitOn_append_cons, hpieces, List.count_append,
      List.count_singleton_self, ← hlength, List.getElem?_append_right (Nat.le_refl _),
      Nat.sub_self]
    rfl

/-- Every piece stands somewhere in the text. -/
theorem exists_isPiece (h : (splitOn separator t)[k]? = some piece) :
    ∃ before after, IsPiece separator t before piece after ∧ before.count separator = k := by
  induction t generalizing k piece with
  | nil =>
    cases k with
    | zero =>
      obtain rfl := Option.some.inj h
      exact ⟨[], [], ⟨rfl, List.not_mem_nil, .inl rfl, .inl rfl⟩, rfl⟩
    | succ k => cases h
  | cons c t ih =>
    rw [splitOn] at h
    by_cases hc : c = separator
    · subst hc
      rw [if_pos rfl] at h
      cases k with
      | zero =>
        obtain rfl := Option.some.inj h
        exact ⟨[], c :: t, ⟨rfl, List.not_mem_nil, .inl rfl, .inr ⟨t, rfl⟩⟩, rfl⟩
      | succ k =>
        obtain ⟨before, after, hpiece, hcount⟩ := ih h
        refine ⟨c :: before, after, ⟨?_, hpiece.free, .inr ?_, hpiece.stop⟩, ?_⟩
        · rw [hpiece.text]
          rfl
        · rcases hpiece.start with rfl | ⟨front, rfl⟩
          · exact ⟨[], rfl⟩
          · exact ⟨c :: front, rfl⟩
        · rw [List.count_cons_self, hcount]
    · rw [if_neg hc] at h
      cases hs : splitOn separator t with
      | nil => exact absurd hs (splitOn_ne_nil separator t)
      | cons first pieces =>
        rw [hs] at h ih
        cases k with
        | zero =>
          -- The character belongs to the first piece.
          obtain rfl := Option.some.inj h
          obtain ⟨before, after, hpiece, hcount⟩ := ih (k := 0) rfl
          obtain rfl : before = [] := by
            rcases hpiece.start with rfl | ⟨front, rfl⟩
            · rfl
            · simp at hcount
          refine ⟨[], after, ⟨?_, ?_, .inl rfl, hpiece.stop⟩, rfl⟩
          · rw [hpiece.text]
            rfl
          · rw [List.mem_cons, not_or]
            exact ⟨Ne.symm hc, hpiece.free⟩
        | succ k =>
          obtain ⟨before, after, hpiece, hcount⟩ := ih (k := k + 1) h
          refine ⟨c :: before, after, ⟨?_, hpiece.free, .inr ?_, hpiece.stop⟩, ?_⟩
          · rw [hpiece.text]
            rfl
          · rcases hpiece.start with rfl | ⟨front, rfl⟩
            · cases hcount
            · exact ⟨c :: front, rfl⟩
          · rw [List.count_cons_of_ne hc, hcount]

/-! ## Lines -/

/-- What is left without the return stands in front. -/
theorem dropReturn_isPrefix (t : Text) : dropReturn t <+: t := by
  unfold dropReturn
  split
  · exact List.dropLast_prefix t
  · exact List.prefix_rfl

/-- One return is dropped, or nothing. -/
theorem dropReturn_cases (t : Text) : dropReturn t = t ∨ dropReturn t ++ ['\r'] = t := by
  unfold dropReturn
  split
  · next h => exact .inr (List.dropLast_append_getLast? _ h)
  · exact .inl rfl

/-- The lines of a text are its pieces without returns, and the last piece if it is not empty. -/
theorem lines_eq {pieces : List Text} {last : Text} (h : splitOn '\n' t = pieces ++ [last]) :
    lines t = pieces.map dropReturn ++ (if last.isEmpty then [] else [last]) := by
  unfold lines
  simp only [h, List.dropLast_concat, List.getLast?_concat, Option.getD_some]

/-- The lines are the pieces without their returns, the last piece as it is unless it is empty. -/
theorem getElem?_lines (t : Text) (k : Nat) :
    ∃ pieces last, splitOn '\n' t = pieces ++ [last] ∧
      (lines t)[k]? = if k < pieces.length then pieces[k]?.map dropReturn
        else if k = pieces.length ∧ last ≠ [] then some last else none := by
  obtain ⟨pieces, last, hpieces⟩ :=
    (List.eq_nil_or_concat (splitOn '\n' t)).resolve_left (splitOn_ne_nil '\n' t)
  rw [List.concat_eq_append] at hpieces
  refine ⟨pieces, last, hpieces, ?_⟩
  rw [lines_eq hpieces]
  by_cases hk : k < pieces.length
  · rw [if_pos hk, List.getElem?_append_left (by simpa using hk), List.getElem?_map]
  · rw [if_neg hk, List.getElem?_append_right (by simpa using hk), List.length_map]
    cases last with
    | nil => simp
    | cons c last =>
      by_cases hlast : k = pieces.length
      · simp [hlast]
      · have hpos : 0 < k - pieces.length := by omega
        rw [if_neg (by simp), List.getElem?_eq_none (by simp; omega), if_neg (by simp [hlast])]

/-- A line is the front of a piece. -/
theorem exists_isPiece_of_lines (h : (lines t)[k]? = some line) :
    ∃ before piece after, IsPiece '\n' t before piece after ∧ before.count '\n' = k ∧
      line <+: piece := by
  have hpiece : ∃ piece, (splitOn '\n' t)[k]? = some piece ∧ line <+: piece := by
    obtain ⟨pieces, last, hpieces, hlines⟩ := getElem?_lines t k
    rw [hlines] at h
    by_cases hk : k < pieces.length
    · rw [if_pos hk] at h
      obtain ⟨piece, hpiece, rfl⟩ := Option.map_eq_some_iff.1 h
      refine ⟨piece, ?_, dropReturn_isPrefix piece⟩
      rw [hpieces, List.getElem?_append_left hk, hpiece]
    · rw [if_neg hk] at h
      split at h
      · next hlast =>
        obtain rfl := Option.some.inj h
        refine ⟨last, ?_, List.prefix_rfl⟩
        rw [hpieces, hlast.1, List.getElem?_concat_length]
      · cases h
  obtain ⟨piece, hk, hprefix⟩ := hpiece
  obtain ⟨before, after, hpiece, hcount⟩ := exists_isPiece hk
  exact ⟨before, piece, after, hpiece, hcount, hprefix⟩

/-- A piece that is not empty is a line, but for a carriage return at its end. -/
theorem exists_line (h : IsPiece '\n' t before piece after) (hne : piece ≠ []) :
    ∃ line, (lines t)[before.count '\n']? = some line ∧
      (line = piece ∨ line ++ ['\r'] = piece) := by
  have hk := splitOn_of_isPiece h
  obtain ⟨pieces, last, hpieces, hlines⟩ := getElem?_lines t (before.count '\n')
  rw [hlines]
  rw [hpieces] at hk
  by_cases hlt : before.count '\n' < pieces.length
  · rw [List.getElem?_append_left hlt] at hk
    rw [if_pos hlt, hk]
    exact ⟨dropReturn piece, rfl, dropReturn_cases piece⟩
  · rw [List.getElem?_append_right (Nat.le_of_not_lt hlt)] at hk
    have hlast : before.count '\n' - pieces.length = 0 := by
      have := (List.getElem?_eq_some_iff.1 hk).1
      simpa using this
    rw [hlast] at hk
    obtain rfl := Option.some.inj hk
    rw [if_neg hlt, if_pos ⟨by omega, hne⟩]
    exact ⟨last, rfl, .inl rfl⟩

end PhpLint.Text

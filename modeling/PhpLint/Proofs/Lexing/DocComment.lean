import Mathlib.Data.List.TakeWhile
import PhpLint.Proofs.Lexing.Reading
import PhpLint.Proofs.Text.Cut

/-!
# The lexemes of a doc comment

A doc comment is read as an opener, the lexemes of its body and a closer.  Of a body three things
are kept from lexeme to lexeme: only stars, spaces, tags and texts occur; a line feed occurs only as
the last character of a space; and once a line has content, no tag comes before the line feed that
ends it (`feed_mem_of_content`).

`Reads.exists_doc` says that a reading holds such kinds nowhere else: a lexeme of a doc comment's
kind lies in a whole doc comment of the reading.
-/

namespace PhpLint

namespace Comment

/-- What may stand between the two ends of a doc comment: stars, spaces, tags and texts. -/
def isInnerKind (k : Kind) : Bool :=
  k == .docStar || k == .docSpace || k == .docTag || k == .docText

/-- In the body of a doc comment only inner kinds occur. -/
theorem isInnerKind_of_mem_docBody {content : Bool} {t : Text} {l : Lexeme}
    (h : l ∈ docBody content t) : isInnerKind l.kind = true := by
  fun_induction docBody content t with
  | case1 => cases h
  | case2 | case3 | case4 | case5 | case6 | case7 =>
    rename_i ih
    rcases List.mem_cons.1 h with rfl | h
    · rfl
    · exact ih h

/-! ## Line feeds -/

/-- A line feed is the last character of a space of the doc comment, and its only one. -/
def FeedLast (l : Lexeme) : Prop :=
  '\n' ∈ l.text → l.kind = .docSpace ∧ ∃ front, l.text = front ++ ['\n'] ∧ '\n' ∉ front

/-- Without a line feed there is none out of place. -/
theorem feedLast_of_not_mem {l : Lexeme} (h : '\n' ∉ l.text) : FeedLast l := fun hmem =>
  absurd hmem h

/-- A text of a doc comment lies on one line. -/
theorem feed_not_mem_docTextTail (c : Char) (rest : Text) : '\n' ∉ docTextTail c rest := by
  have hline := (Text.trimEndOf_isPrefix isBlank (c :: rest.takeWhile isLineChar)).drop 1
  intro h
  exact Text.notMem_takeWhile (p := isLineChar) rfl rest (hline.subset h)

/-- In a body a line feed ends a space. -/
theorem feedLast_of_mem_docBody {content : Bool} {t : Text} {l : Lexeme}
    (h : l ∈ docBody content t) : FeedLast l := by
  fun_induction docBody content t with
  | case1 => cases h
  | case2 content rest ih =>
    rcases List.mem_cons.1 h with rfl | h
    · exact fun _ => ⟨rfl, [], rfl, List.not_mem_nil⟩
    · exact ih h
  | case3 content c rest hc hreturn ih =>
    rcases List.mem_cons.1 h with rfl | h
    · -- A carriage return is a lexeme of its own only together with the line feed behind it.
      simp only [Bool.and_eq_true, decide_eq_true_eq, beq_iff_eq] at hreturn
      obtain ⟨d, rest', rfl⟩ : ∃ d rest', rest = d :: rest' := by
        cases rest with
        | nil => simp at hreturn
        | cons d rest' => exact ⟨d, rest', rfl⟩
      obtain ⟨rfl, hd⟩ := hreturn
      obtain rfl : d = '\n' := by simpa using hd
      exact fun _ => ⟨rfl, ['\r'], rfl, by simp⟩
    · exact ih h
  | case4 content c rest hc _ hgap tail ih =>
    rcases List.mem_cons.1 h with rfl | h
    · refine feedLast_of_not_mem ?_
      simpa [Ne.symm hc] using Text.notMem_takeWhile (p := isGap) rfl rest
    · exact ih h
  | case5 content c rest hc _ _ hstar ih =>
    rcases List.mem_cons.1 h with rfl | h
    · exact feedLast_of_not_mem (by simpa using Ne.symm hc)
    · exact ih h
  | case6 content c rest hc _ _ _ htag tail ih =>
    rcases List.mem_cons.1 h with rfl | h
    · refine feedLast_of_not_mem ?_
      simpa [Ne.symm hc] using
        Text.notMem_takeWhile (p := fun d => !Unicode.isSpace d) (by decide) rest
    · exact ih h
  | case7 content c rest hc _ _ _ _ tail ih =>
    rcases List.mem_cons.1 h with rfl | h
    · refine feedLast_of_not_mem ?_
      simpa [Ne.symm hc] using feed_not_mem_docTextTail c rest
    · exact ih h

/-- In a whole doc comment a line feed ends a space. -/
theorem feedLast_of_mem_doc {body : Text} {l : Lexeme} (h : l ∈ doc body) : FeedLast l := by
  rcases mem_doc_iff.1 h with rfl | h | rfl
  · exact feedLast_of_not_mem (by decide)
  · exact feedLast_of_mem_docBody h
  · exact feedLast_of_not_mem (by decide)

/-! ## Content of a line -/

/-- On a line that has content, a tag comes only after a line feed. -/
theorem feed_mem_before_tag {content : Bool} {t : Text} (hcontent : content = true)
    {ys zs : List Lexeme} {b : Lexeme} (h : docBody content t = ys ++ b :: zs)
    (hb : b.kind = .docTag) : '\n' ∈ Lexeme.spell ys := by
  -- On such a line the body reads neither a star nor a tag, so only the cases that read a line
  -- feed and those that leave the line as it is remain.
  fun_induction docBody content t generalizing ys with
  | case1 => simp at h
  | case2 content rest ih =>
    rcases List.cons_eq_append_iff.1 h with ⟨rfl, hhead⟩ | ⟨ys, rfl, -⟩
    · cases hhead
      cases hb
    · simp
  | case3 content c rest hc hreturn ih =>
    rcases List.cons_eq_append_iff.1 h with ⟨rfl, hhead⟩ | ⟨ys, rfl, -⟩
    · cases hhead
      cases hb
    · simp only [Bool.and_eq_true, decide_eq_true_eq, beq_iff_eq] at hreturn
      cases rest <;> simp_all
  | case4 content c rest _ _ _ tail ih =>
    rcases List.cons_eq_append_iff.1 h with ⟨rfl, hhead⟩ | ⟨ys, rfl, hrest⟩
    · cases hhead
      cases hb
    · simp [ih hcontent hrest]
  | case5 content c rest _ _ _ hstar ih => simp [hcontent] at hstar
  | case6 content c rest _ _ _ _ htag tail ih => simp [hcontent] at htag
  | case7 content c rest _ _ _ _ _ tail ih =>
    rcases List.cons_eq_append_iff.1 h with ⟨rfl, hhead⟩ | ⟨ys, rfl, hrest⟩
    · cases hhead
      cases hb
    · simp [ih rfl hrest]

/-- Between content and a later tag the line ends. -/
theorem feed_mem_of_content {content : Bool} {t : Text} {xs ys zs : List Lexeme} {a b : Lexeme}
    (h : docBody content t = xs ++ a :: (ys ++ b :: zs)) (ha : a.kind.isDocContent = true)
    (hb : b.kind = .docTag) : '\n' ∈ Lexeme.spell ys := by
  fun_induction docBody content t generalizing xs with
  | case1 => simp at h
  | case2 | case3 | case4 | case5 =>
    rename_i ih
    rcases List.cons_eq_append_iff.1 h with ⟨rfl, hhead⟩ | ⟨xs, rfl, hrest⟩
    · obtain ⟨rfl, -⟩ := List.cons.inj hhead
      cases ha
    · exact ih hrest
  | case6 | case7 =>
    rename_i ih
    rcases List.cons_eq_append_iff.1 h with ⟨rfl, hhead⟩ | ⟨xs, rfl, hrest⟩
    · exact feed_mem_before_tag rfl (List.cons.inj hhead).2.symm hb
    · exact ih hrest

end Comment

namespace Scan

/-- A lexeme of a doc comment's kind lies in a whole doc comment of the reading. -/
theorem Reads.exists_doc {t : Text} {ls : List Lexeme} (h : Reads t ls) {k : Nat} {l : Lexeme}
    (hl : ls[k]? = some l) (hkind : l.kind.isDocComment = true) :
    ∃ before body after, ls = before ++ Comment.doc body ++ after ∧ Comment.ClosesFirst body ∧
      before.length ≤ k ∧ k < before.length + (Comment.doc body).length := by
  induction h generalizing k with
  | nil => simp at hl
  | @one kind c more rest ls hplain hrest ih =>
    cases k with
    | zero =>
      obtain rfl := Option.some.inj hl
      rw [hplain] at hkind
      cases hkind
    | succ k =>
      obtain ⟨before, body, after, rfl, hcloses, hle, hlt⟩ := ih hl
      refine ⟨⟨kind, c :: more⟩ :: before, body, after, rfl, hcloses, ?_, ?_⟩
      · simp only [List.length_cons]
        omega
      · simp only [List.length_cons]
        omega
  | @doc body rest ls hcloses hrest ih =>
    by_cases hk : k < (Comment.doc body).length
    · exact ⟨[], body, ls, rfl, hcloses, Nat.zero_le k, by simpa using hk⟩
    · rw [List.getElem?_append_right (Nat.le_of_not_lt hk)] at hl
      obtain ⟨before, body', after, rfl, hcloses', hle, hlt⟩ := ih hl
      refine ⟨Comment.doc body ++ before, body', after, by simp, hcloses', ?_, ?_⟩
      · simp only [List.length_append]
        omega
      · simp only [List.length_append]
        omega

end Scan

end PhpLint

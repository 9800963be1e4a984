import Mathlib.Tactic.SplitIfs
import PhpLint.Proofs.Lexing.ByteSlice
import PhpLint.Proofs.Text.Cut
import PhpLint.Proofs.Text.Letters
import PhpLint.Utf8

/-!
# A text byte by byte

The bytes of a text, each of them taken for the character of its number.  An ASCII character is its
own byte, and every byte of another character is a character beyond ASCII.

So a reader that looks for ASCII characters alone finds the same ones in the text and in its bytes:
`takeWhile_bytes`, `foldCase_take_bytes` and `cut_bytes` say so for the runs of a class of characters,
for a word up to the case of its letters, and for the first occurrence of a character.
-/

namespace PhpLint.Text

/-- The bytes of a text, as characters. -/
def bytes (t : Text) : Text := (Utf8.encode t).map fun b => Char.ofNat b.toNat

/-- An ASCII character. -/
def isAscii (c : Char) : Bool := c.toNat < 128

variable {c : Char} {t word : Text} {p : Char → Bool}

theorem isAscii_comp_toLower : isAscii ∘ Char.toLower = isAscii := comp_toLower (by decide)

/-! ## The bytes of a character -/

@[simp] theorem bytes_nil : bytes [] = [] := rfl

@[simp] theorem bytes_append (s t : Text) : bytes (s ++ t) = bytes s ++ bytes t := by
  simp [bytes, Utf8.encode]

theorem bytes_cons (c : Char) (t : Text) : bytes (c :: t) = bytes [c] ++ bytes t :=
  bytes_append [c] t

@[simp] theorem length_bytes (t : Text) : (bytes t).length = utf8Length t := by
  induction t with
  | nil => rfl
  | cons c t ih =>
    rw [bytes_cons, List.length_append, ih, utf8Length_cons]
    simp [bytes, Utf8.encode]

/-- An ASCII character is its own byte. -/
theorem bytes_cons_of_ascii (h : isAscii c = true) (t : Text) : bytes (c :: t) = c :: bytes t := by
  have hlt : c.toNat < 128 := of_decide_eq_true h
  have hval : c.val.toNat ≤ 127 := Nat.le_of_lt_succ hlt
  have hencode : String.utf8EncodeChar c = [UInt8.ofNat c.toNat] := by
    simp only [String.utf8EncodeChar, if_pos hval]
    rfl
  have hbyte : (UInt8.ofNat c.toNat).toNat = c.toNat := by
    rw [UInt8.toNat_ofNat']
    omega
  simp [bytes, Utf8.encode, hencode, hbyte]

/-- No byte of another character is ASCII. -/
theorem isAscii_byte (h : isAscii c = false) {b : UInt8} (hb : b ∈ String.utf8EncodeChar c) :
    isAscii (Char.ofNat b.toNat) = false := by
  have hwide : ¬c.toNat < 128 := of_decide_eq_false h
  have hval : ¬c.val.toNat ≤ 127 := fun hle => hwide (Nat.lt_succ_of_le hle)
  have hofNat {n : Nat} (hlow : 128 ≤ n) (hhigh : n < 256) : 128 ≤ (UInt8.ofNat n).toNat := by
    rw [UInt8.toNat_ofNat']
    omega
  have hlarge : 128 ≤ b.toNat := by
    -- One case for each length of a character: every byte has its highest bit.
    simp only [String.utf8EncodeChar, if_neg hval] at hb
    split_ifs at hb <;> simp only [List.mem_cons, List.not_mem_nil, or_false] at hb
    · obtain rfl | rfl := hb
      all_goals exact hofNat (by omega) (by omega)
    · obtain rfl | rfl | rfl := hb
      all_goals exact hofNat (by omega) (by omega)
    · obtain rfl | rfl | rfl | rfl := hb
      all_goals exact hofNat (by omega) (by omega)
  have hlt := b.toNat_lt
  have hbyte : (Char.ofNat b.toNat).toNat = b.toNat := by
    have hvalid : b.toNat.isValidChar := Or.inl (by omega)
    rw [Char.ofNat, dif_pos hvalid]
    rfl
  refine decide_eq_false ?_
  omega

/-- Among the bytes of another character there is no ASCII character. -/
theorem isAscii_of_mem_bytes (h : isAscii c = false) {x : Char} (hx : x ∈ bytes [c]) :
    isAscii x = false := by
  obtain ⟨b, hb, rfl⟩ := List.mem_map.1 hx
  exact isAscii_byte h (by simpa [Utf8.encode] using hb)

/-- Another character starts with a byte that is not ASCII. -/
theorem exists_bytes_cons (h : isAscii c = false) (t : Text) :
    ∃ x rest, bytes (c :: t) = x :: rest ∧ isAscii x = false := by
  have hlength : 0 < (bytes [c]).length := by
    rw [length_bytes, utf8Length_cons]
    exact Nat.lt_of_lt_of_le c.utf8Size_pos (Nat.le_add_right _ _)
  cases hbytes : bytes [c] with
  | nil => simp [hbytes] at hlength
  | cons x xs =>
    have hx : x ∈ bytes [c] := by simp [hbytes]
    exact ⟨x, xs ++ bytes t, by rw [bytes_cons, hbytes, List.cons_append],
      isAscii_of_mem_bytes h hx⟩

/-- A text has at least as many bytes as characters. -/
theorem length_le_utf8Length (t : Text) : t.length ≤ utf8Length t := by
  induction t with
  | nil => exact Nat.le_refl 0
  | cons c t ih =>
    have hpos := c.utf8Size_pos
    rw [List.length_cons, utf8Length_cons]
    omega

theorem utf8Size_of_ascii (h : isAscii c = true) : c.utf8Size = 1 := by
  have hlt : c.toNat < 128 := of_decide_eq_true h
  exact Char.utf8Size_eq_one_iff.2 (UInt32.le_iff_toNat_le.2 (Nat.le_of_lt_succ hlt))

/-- An ASCII text has as many bytes as characters. -/
theorem utf8Length_of_ascii (h : ∀ c ∈ t, isAscii c = true) : utf8Length t = t.length := by
  induction t with
  | nil => rfl
  | cons c t ih =>
    have hfirst := utf8Size_of_ascii (h c List.mem_cons_self)
    have hrest := ih fun d hd => h d (List.mem_cons_of_mem c hd)
    rw [utf8Length_cons, hfirst, hrest, List.length_cons, Nat.add_comm]

/-! ## What a reader of ASCII finds -/

/-- A cut at a character of the text is a cut of its bytes. -/
theorem drop_bytes (n : Nat) (t : Text) :
    (bytes t).drop (utf8Length (t.take n)) = bytes (t.drop n) := by
  have hparts : bytes t = bytes (t.take n) ++ bytes (t.drop n) := by
    rw [← bytes_append, List.take_append_drop]
  rw [hparts, ← length_bytes, List.drop_left]

/-- An ASCII character stands in front of a text when it does of its bytes. -/
theorem head?_bytes_eq_some_iff (hc : isAscii c = true) :
    (bytes t).head? = some c ↔ t.head? = some c := by
  cases t with
  | nil => rfl
  | cons d t =>
    cases hd : isAscii d with
    | true => rw [bytes_cons_of_ascii hd, List.head?_cons, List.head?_cons]
    | false =>
      obtain ⟨x, rest, hbytes, hx⟩ := exists_bytes_cons hd t
      rw [hbytes, List.head?_cons, List.head?_cons]
      constructor <;> intro heq <;> simp_all

/-- A run of ASCII characters is the same in a text and in its bytes. -/
theorem takeWhile_bytes (hp : ∀ c, p c = true → isAscii c = true) (t : Text) :
    (bytes t).takeWhile p = t.takeWhile p := by
  have hstop {d : Char} (hd : isAscii d = false) : p d = false := by
    cases hpd : p d with
    | false => rfl
    | true => exact absurd (hp d hpd) (by simp [hd])
  induction t with
  | nil => rfl
  | cons d t ih =>
    cases hd : isAscii d with
    | true => rw [bytes_cons_of_ascii hd, List.takeWhile_cons, List.takeWhile_cons, ih]
    | false =>
      obtain ⟨x, rest, hbytes, hx⟩ := exists_bytes_cons hd t
      rw [hbytes, List.takeWhile_cons_of_neg (by simp [hstop hx]),
        List.takeWhile_cons_of_neg (by simp [hstop hd])]

/-- The bytes start with a word when the text does, up to the case of letters. -/
theorem foldCase_take_bytes (hword : ∀ c ∈ word, isAscii c = true) (t : Text) :
    foldCase ((bytes t).take word.length) = word ↔ foldCase (t.take word.length) = word := by
  induction word generalizing t with
  | nil => simp [foldCase]
  | cons c word ih =>
    have hc := hword c List.mem_cons_self
    have hrest := ih fun d hd => hword d (List.mem_cons_of_mem c hd)
    cases t with
    | nil => rfl
    | cons d t =>
      cases hd : isAscii d with
      | true =>
        rw [bytes_cons_of_ascii hd]
        simp only [List.length_cons, List.take_succ_cons, foldCase, List.map_cons, List.cons.injEq]
        exact and_congr_right fun _ => hrest t
      | false =>
        obtain ⟨x, rest, hbytes, hx⟩ := exists_bytes_cons hd t
        have hne {x : Char} (hx : isAscii x = false) : x.toLower ≠ c := by
          intro heq
          have hlower : isAscii x.toLower = isAscii x := congrFun isAscii_comp_toLower x
          rw [heq, hc, hx] at hlower
          cases hlower
        simp [hbytes, foldCase, hne hx, hne hd]

/-- A text is cut at its first character, or behind it. -/
theorem cut_singleton_cons (c d : Char) (t : Text) :
    cut [c] (d :: t) =
      if c = d then some ([], t) else (cut [c] t).map fun parts => (d :: parts.1, parts.2) := by
  by_cases h : c = d <;> simp [cut, stripStart, h]

/-- A text is cut behind a part that does not hold the character. -/
theorem cut_singleton_append (h : c ∉ word) (t : Text) :
    cut [c] (word ++ t) = (cut [c] t).map fun parts => (word ++ parts.1, parts.2) := by
  induction word with
  | nil => simp
  | cons d word ih =>
    have hne : c ≠ d := fun heq => h (heq ▸ List.mem_cons_self)
    have hrest : c ∉ word := fun hmem => h (List.mem_cons_of_mem d hmem)
    rw [List.cons_append, cut_singleton_cons, if_neg hne, ih hrest, Option.map_map]
    rfl

/-- The first occurrence of a character in the text is the first one in its bytes. -/
theorem cut_bytes (hc : isAscii c = true) (t : Text) :
    cut [c] (bytes t) = (cut [c] t).map fun parts => (bytes parts.1, bytes parts.2) := by
  induction t with
  | nil => rfl
  | cons d t ih =>
    cases hd : isAscii d with
    | true =>
      rw [bytes_cons_of_ascii hd, cut_singleton_cons, cut_singleton_cons, ih]
      split
      · rfl
      · simp [bytes_cons_of_ascii hd, Function.comp_def]
    | false =>
      have hfree : c ∉ bytes [d] := by
        intro hmem
        rw [isAscii_of_mem_bytes hd hmem] at hc
        cases hc
      have hne : c ≠ d := by
        intro heq
        rw [heq, hd] at hc
        cases hc
      rw [bytes_cons, cut_singleton_append hfree, ih, cut_singleton_cons, if_neg hne,
        Option.map_map, Option.map_map]
      refine congrArg (Option.map · _) (funext fun parts => ?_)
      exact congrArg (·, bytes parts.2) (bytes_cons d parts.1).symm

end PhpLint.Text

import PhpLint.Proofs.Lexing.Search
import PhpLint.Proofs.LineEnds.Mirror
import PhpLint.Proofs.Pairing.Nesting

/-!
# Answers of mirrored streams

Whatever is asked of a token is answered alike at its image, and every search leads from an image to
the image of what it finds, if it takes no notice of text outside of code: a forward search has to stop
at closing tags if it stops at that text, and a backward search at open tags.  Pairs of delimiters, the
tags of doc comments and lists over ranges of indices follow.
-/

namespace PhpLint.TokenStream

open Text (withReturns)

variable {s s' : TokenStream} {φ : Nat → Nat} {p : Kind → Bool} {i j : Nat}

namespace Mirrors

/-! ## Indices -/

/-- Images are in the order of their indices. -/
theorem strictMono (h : Mirrors s s' φ) : StrictMono φ := by
  refine strictMono_nat_of_lt_succ fun i => ?_
  rcases h.succ i with hone | ⟨htwo, -⟩
  · omega
  · omega

/-- Every index is an image or holds the line end that a closing tag leaves. -/
theorem cover (h : Mirrors s s' φ) (j : Nat) :
    ∃ i, j = φ i ∨ j = φ i + 1 ∧ φ (i + 1) = φ i + 2 := by
  induction j with
  | zero => exact ⟨0, .inl h.zero.symm⟩
  | succ j ih =>
    obtain ⟨i, rfl | ⟨rfl, htwo⟩⟩ := ih
    · rcases h.succ i with hone | ⟨htwo, -⟩
      · exact ⟨i + 1, .inl hone.symm⟩
      · exact ⟨i, .inr ⟨rfl, htwo⟩⟩
    · exact ⟨i + 1, .inl htwo.symm⟩

/-- An image before the line end that a tag leaves lies no later than the tag. -/
theorem le_of_image_le (h : Mirrors s s' φ) (hj : φ (j + 1) = φ j + 2) (hij : φ i ≤ φ j + 1) :
    i ≤ j := by
  by_contra hlt
  have hle := h.strictMono.monotone (show j + 1 ≤ i by omega)
  omega

/-- A token and its image are of one kind. -/
theorem kind?_image (h : Mirrors s s' φ) (i : Nat) : s'.kind? (φ i) = s.kind? i := by
  cases ht : s.token? i with
  | some t =>
    obtain ⟨t', ht', halike⟩ := h.token i t ht
    rw [kind?_of_token? ht, kind?_of_token? ht', halike.kind]
  | none =>
    have hsize : s.size ≤ i := by
      exact Array.getElem?_eq_none_iff.1 ht
    have hsize' : s'.size ≤ φ i := h.size ▸ h.strictMono.monotone hsize
    have ht' : s'.token? (φ i) = none := Array.getElem?_eq_none hsize'
    rw [kind?, kind?, ht, ht']

/-- What is asked of the kind is answered alike at the image. -/
theorem has_image (h : Mirrors s s' φ) (i : Nat) (p : Kind → Bool) : s'.has (φ i) p = s.has i p := by
  rw [has, has, h.kind?_image]

/-- A kind stands at the image when it stands at the index. -/
theorem isAt_image (h : Mirrors s s' φ) (i : Nat) (k : Kind) : s'.isAt (φ i) k = s.isAt i k := by
  rw [isAt, isAt, h.kind?_image]

/-- What stands around the line end that a closing tag leaves. -/
theorem left (h : Mirrors s s' φ) (hi : φ (i + 1) = φ i + 2) :
    s.kind? i = some .closeTag ∧ s'.kind? (φ i + 1) = some .inlineHtml ∧
      ∀ k ∈ s.kind? (i + 1), k = .openTag := by
  rcases h.succ i with hone | ⟨-, hleft⟩
  · omega
  · exact hleft

/-- A line end that is left is text outside of code. -/
theorem has_left (h : Mirrors s s' φ) (hi : φ (i + 1) = φ i + 2) (p : Kind → Bool) :
    s'.has (φ i + 1) p = p .inlineHtml := by
  rw [has, (h.left hi).2.1, Option.any_some]

/-- Behind anything but a closing tag the images follow each other. -/
theorem image_succ (h : Mirrors s s' φ) (hi : s.isAt i .closeTag = false) : φ (i + 1) = φ i + 1 := by
  rcases h.succ i with hone | ⟨-, hclose, -⟩
  · exact hone
  · rw [isAt_iff.2 hclose] at hi
    cases hi

/-! ## Searches -/

/-- What stops at closing tags if it stops at text outside of code stops at no line end that is left. -/
theorem not_has_left (h : Mirrors s s' φ) (hp : p .inlineHtml = true → p .closeTag = true)
    (hi : φ (i + 1) = φ i + 2) (hclose : s.has i p = false) : s'.has (φ i + 1) p = false := by
  rw [has, (h.left hi).1, Option.any_some] at hclose
  rw [h.has_left hi]
  by_contra hstop
  rw [hp (eq_true_of_ne_false hstop)] at hclose
  cases hclose

/-- A forward search that stops at closing tags if it stops at text outside of code. -/
theorem findNext_image (h : Mirrors s s' φ) (hp : p .inlineHtml = true → p .closeTag = true)
    (i : Nat) : s'.findNext p (φ i) = (s.findNext p i).map φ := by
  cases hsearch : s.findNext p i with
  | some j =>
    obtain ⟨hij, hhas, hfirst⟩ := findNext_eq_some_iff.1 hsearch
    refine findNext_eq_some_iff.2 ⟨h.strictMono.monotone hij, by rwa [h.has_image], ?_⟩
    intro k hik hkj
    obtain ⟨m, rfl | ⟨rfl, htwo⟩⟩ := h.cover k
    · rw [h.has_image]
      exact hfirst m (h.strictMono.le_iff_le.1 hik) (h.strictMono.lt_iff_lt.1 hkj)
    · have hmj : m < j := h.strictMono.lt_iff_lt.1 (by omega)
      exact h.not_has_left hp htwo (hfirst m (h.le_of_image_le htwo hik) hmj)
  | none =>
    rw [findNext_eq_none_iff] at hsearch
    refine findNext_eq_none_iff.2 fun j hij => ?_
    obtain ⟨m, rfl | ⟨rfl, htwo⟩⟩ := h.cover j
    · rw [h.has_image]
      exact hsearch m (h.strictMono.le_iff_le.1 hij)
    · exact h.not_has_left hp htwo (hsearch m (h.le_of_image_le htwo hij))

/-- A search within bounds finds the image of what it finds within theirs. -/
theorem findNextBefore_image (h : Mirrors s s' φ) (hp : p .inlineHtml = true → p .closeTag = true)
    (start stop : Nat) :
    s'.findNextBefore p (φ start) (φ stop) = (s.findNextBefore p start stop).map φ := by
  rw [findNextBefore, findNextBefore, h.findNext_image hp, Option.filter_map]
  simp only [Function.comp_def, h.strictMono.lt_iff_lt]

/-- Behind a line end that is left, at which a search back from `i` would stop, stands an open tag before
`i`, at which it stops first. -/
theorem has_openTag_of_left {m : Nat} (h : Mirrors s s' φ) (hp : p .inlineHtml = true → p .openTag = true)
    (hi : p .inlineHtml = true → s.has i (· != .openTag) = true) (htwo : φ (m + 1) = φ m + 2)
    (hmi : φ m + 1 < φ i) (hhas : s'.has (φ m + 1) p = true) :
    m + 1 < i ∧ s.has (m + 1) p = true := by
  rw [h.has_left htwo] at hhas
  have hcode := hi hhas
  have hle : m + 1 ≤ i := h.strictMono.le_iff_le.1 (by omega)
  obtain ⟨k, hk⟩ := exists_kind? (Nat.lt_of_le_of_lt hle (lt_size_of_has hcode))
  obtain rfl := (h.left htwo).2.2 k hk
  refine ⟨Nat.lt_of_le_of_ne hle ?_, by rw [has, hk]; exact hp hhas⟩
  rintro rfl
  rw [has, hk] at hcode
  cases hcode

/-- A search back from anything but an open tag that stops at open tags if it stops at text outside
of code. -/
theorem findBefore_image (h : Mirrors s s' φ) (hp : p .inlineHtml = true → p .openTag = true)
    (hi : p .inlineHtml = true → s.has i (· != .openTag) = true) :
    s'.findBefore p (φ i) = (s.findBefore p i).map φ := by
  cases hsearch : s.findBefore p i with
  | some j =>
    obtain ⟨hji, hhas, hlast⟩ := findBefore_eq_some_iff.1 hsearch
    refine findBefore_eq_some_iff.2 ⟨h.strictMono hji, by rwa [h.has_image], ?_⟩
    intro k hjk hki
    by_contra hk
    obtain ⟨m, rfl | ⟨rfl, htwo⟩⟩ := h.cover k
    · rw [h.has_image] at hk
      exact hk (hlast m (h.strictMono.lt_iff_lt.1 hjk) (h.strictMono.lt_iff_lt.1 hki))
    · obtain ⟨hmi, hhas'⟩ := h.has_openTag_of_left hp hi htwo hki (eq_true_of_ne_false hk)
      have hjm : j < m + 1 := h.strictMono.lt_iff_lt.1 (by omega)
      rw [hlast (m + 1) hjm hmi] at hhas'
      cases hhas'
  | none =>
    rw [findBefore_eq_none_iff] at hsearch
    refine findBefore_eq_none_iff.2 fun j hji => ?_
    obtain ⟨m, rfl | ⟨rfl, htwo⟩⟩ := h.cover j
    · rw [h.has_image]
      exact hsearch m (h.strictMono.lt_iff_lt.1 hji)
    · by_contra hk
      obtain ⟨hmi, hhas⟩ := h.has_openTag_of_left hp hi htwo hji (eq_true_of_ne_false hk)
      rw [hsearch (m + 1) hmi] at hhas
      cases hhas

/-- From code, a forward search that stops at closing tags does not get out of it. -/
theorem inside_of_findNext (h : Mirrors s s' φ) (hp : p .closeTag = true)
    (hi : s.isAt i .inlineHtml = false) (hj : s.findNext p i = some j) :
    s.isAt j .inlineHtml = false := by
  obtain ⟨hij, -, hfirst⟩ := findNext_eq_some_iff.1 hj
  by_contra hhtml
  have hkind := isAt_iff.1 (eq_true_of_ne_false hhtml)
  rcases Nat.lt_or_eq_of_le hij with hlt | rfl
  · obtain ⟨k, rfl⟩ : ∃ k, j = k + 1 := ⟨j - 1, by omega⟩
    have hk := hfirst k (by omega) (Nat.lt_succ_self k)
    rw [has, h.before k hkind, Option.any_some, hp] at hk
    cases hk
  · exact hhtml hi

/-- From code, a backward search that stops at open tags does not get out of it. -/
theorem inside_of_findBefore (h : Mirrors s s' φ) (hp : p .openTag = true)
    (hi : s.has i (· != .openTag) = true) (hj : s.findBefore p i = some j) :
    s.isAt j .inlineHtml = false := by
  obtain ⟨hji, -, hlast⟩ := findBefore_eq_some_iff.1 hj
  by_contra hhtml
  have hsize := lt_size_of_has hi
  obtain ⟨k, hk⟩ := exists_kind? (Nat.lt_of_le_of_lt (Nat.succ_le_of_lt hji) hsize)
  obtain rfl := h.behind j (isAt_iff.1 (eq_true_of_ne_false hhtml)) k hk
  rcases Nat.lt_or_eq_of_le (Nat.succ_le_of_lt hji) with hlt | rfl
  · have hnext := hlast (j + 1) (Nat.lt_succ_self j) hlt
    rw [has, hk, Option.any_some, hp] at hnext
    cases hnext
  · rw [has, hk] at hi
    cases hi

/-- Text outside of code stands only behind a closing tag. -/
theorem isAt_inlineHtml_succ (h : Mirrors s s' φ) (hi : s.isAt i .closeTag = false) :
    s.isAt (i + 1) .inlineHtml = false := by
  by_contra hhtml
  rw [isAt_iff.2 (h.before i (isAt_iff.1 (eq_true_of_ne_false hhtml)))] at hi
  cases hi

/-- What carries code behind anything but a closing tag. -/
theorem nextSignificant_image (h : Mirrors s s' φ) (hi : s.isAt i .closeTag = false) :
    s'.nextSignificant (φ i) = (s.nextSignificant i).map φ := by
  rw [nextSignificant, nextSignificant, ← h.image_succ hi]
  exact h.findNext_image (fun _ => rfl) (i + 1)

/-- The next code behind anything but a closing tag is no text outside of code. -/
theorem inside_of_nextSignificant (h : Mirrors s s' φ) (hi : s.isAt i .closeTag = false)
    (hj : s.nextSignificant i = some j) : s.isAt j .inlineHtml = false :=
  h.inside_of_findNext rfl (h.isAt_inlineHtml_succ hi) hj

/-- What carries code before anything but an open tag. -/
theorem previousSignificant_image (h : Mirrors s s' φ) (hi : s.has i (· != .openTag) = true) :
    s'.previousSignificant (φ i) = (s.previousSignificant i).map φ :=
  h.findBefore_image (fun _ => rfl) fun _ => hi

/-! ## Single tokens -/

/-- Behind the end of the one stream lies the end of the other. -/
theorem token?_image_eq_none (h : Mirrors s s' φ) (hi : s.token? i = none) :
    s'.token? (φ i) = none := by
  have hkind := h.kind?_image i
  rw [kind?, kind?, hi, Option.map_none, Option.map_eq_none_iff] at hkind
  exact hkind

/-- An image stands on the line of its index, unless it is text outside of code. -/
theorem line_image (h : Mirrors s s' φ) (hi : s.isAt i .inlineHtml = false) :
    s'.line (φ i) = s.line i := by
  cases ht : s.token? i with
  | none => rw [line, line, ht, h.token?_image_eq_none ht]
  | some t =>
    obtain ⟨t', ht', halike⟩ := h.token i t ht
    rw [line_of_token? ht, line_of_token? ht']
    refine halike.line fun hkind => ?_
    rw [(isAt_of_token? ht .inlineHtml).2 hkind] at hi
    cases hi

/-- An image stands on the line of its index, by a class of kinds. -/
theorem line_image_of_has (h : Mirrors s s' φ) (hi : s.has i p = true)
    (hp : p .inlineHtml = false) : s'.line (φ i) = s.line i := by
  refine h.line_image ?_
  by_contra hhtml
  rw [has_of_isAt (eq_true_of_ne_false hhtml), hp] at hi
  cases hi

/-- An image stands on the line of its index, by its kind. -/
theorem line_image_of_isAt (h : Mirrors s s' φ) {k : Kind} (hi : s.isAt i k = true)
    (hk : k ≠ .inlineHtml) : s'.line (φ i) = s.line i := by
  refine h.line_image ?_
  rw [isAt, isAt_iff.1 hi]
  simpa using hk

/-- The contents are the same, or both are no words. -/
theorem sameWord_content (h : Mirrors s s' φ) (hi : s.isAt i .inlineHtml = false) :
    Text.SameWord (s.content i) (s'.content (φ i)) := by
  cases ht : s.token? i with
  | none => exact .inl (by rw [content, content, ht, h.token?_image_eq_none ht])
  | some t =>
    obtain ⟨t', ht', halike⟩ := h.token i t ht
    rw [content_of_token? ht, content_of_token? ht']
    refine halike.content fun hkind => ?_
    rw [(isAt_of_token? ht .inlineHtml).2 hkind] at hi
    cases hi

/-- A token that never breaks has the same content. -/
theorem content_image (h : Mirrors s s' φ) (hi : s.has i Kind.mayBreak = false) :
    s'.content (φ i) = s.content i := by
  cases ht : s.token? i with
  | none => rw [content, content, ht, h.token?_image_eq_none ht]
  | some t =>
    obtain ⟨t', ht', halike⟩ := h.token i t ht
    rw [content_of_token? ht, content_of_token? ht']
    refine halike.plain ?_
    rwa [has_of_token? ht] at hi

/-- An identifier is a word. -/
theorem isNoWord_content (h : Mirrors s s' φ) (hi : s.isAt i .identifier = true) :
    Text.isNoWord (s.content i) = false := by
  obtain ⟨t, ht, hkind⟩ := exists_of_isAt hi
  obtain ⟨t', -, halike⟩ := h.token i t ht
  rw [content_of_token? ht]
  exact halike.suits.word hkind

/-- A word is written at an image as it is written at the index. -/
theorem content_image_eq_iff (h : Mirrors s s' φ) (hi : s.isAt i .inlineHtml = false) {word : Text}
    (hword : Text.isNoWord word = false) : s'.content (φ i) = word ↔ s.content i = word :=
  (h.sameWord_content hi).eq_iff hword

/-- In any case, a word is written at an image when it is written at the index. -/
theorem sameLetters_content_image (h : Mirrors s s' φ) (hi : s.isAt i .inlineHtml = false)
    {word : Text} (hword : Text.isNoWord word = false) :
    Text.sameLetters (s'.content (φ i)) word = Text.sameLetters (s.content i) word :=
  (h.sameWord_content hi).sameLetters hword

end Mirrors

/-! ## Pairs -/

theorem length_kinds (s : TokenStream) : s.kinds.length = s.size := by
  rw [kinds, List.length_map, Array.length_toList, size]

/-- From a token on the kinds start with its own. -/
theorem drop_kinds {k : Kind} (hi : s.kind? i = some k) :
    s.kinds.drop i = k :: s.kinds.drop (i + 1) := by
  rw [← getElem?_kinds] at hi
  obtain ⟨hlt, rfl⟩ := List.getElem?_eq_some_iff.1 hi
  exact List.drop_eq_getElem_cons hlt

namespace Mirrors

open Pairing (Waiting pairsFrom)

/-- A pair of indices, or an opener that waits, in the other stream. -/
def movePair (φ : Nat → Nat) (pair : Nat × Nat) : Nat × Nat := (φ pair.1, φ pair.2)

/-- An opener that waits, in the other stream. -/
def moveWaiting (φ : Nat → Nat) (w : Waiting) : Waiting := ⟨φ w.index, w.delimiter⟩

/-- A step of the pass does the same to the other stream's indices. -/
theorem step_map (φ : Nat → Nat) (i : Nat) (waiting : List Waiting) (k : Kind) :
    Pairing.step (φ i) (waiting.map (moveWaiting φ)) k =
      ((Pairing.step i waiting k).1.map (moveWaiting φ),
        (Pairing.step i waiting k).2.map (movePair φ)) := by
  cases k
  case closes d =>
    cases waiting with
    | nil => rfl
    | cons w outer =>
      have hdelimiter : (moveWaiting φ w).delimiter = w.delimiter := rfl
      rw [List.map_cons, Pairing.step, Pairing.step, hdelimiter]
      split <;> rfl
  all_goals rfl

/-- The line end that a closing tag leaves plays no part in the pairing. -/
theorem pairsFrom_succ (h : Mirrors s s' φ) (i : Nat) (waiting : List Waiting) :
    pairsFrom (φ i + 1) waiting (s'.kinds.drop (φ i + 1)) =
      pairsFrom (φ (i + 1)) waiting (s'.kinds.drop (φ (i + 1))) := by
  rcases h.succ i with hone | ⟨htwo, -, hhtml, -⟩
  · rw [hone]
  · rw [htwo, drop_kinds hhtml, Pairing.pairsFrom_cons]
    rfl

/-- The pass over the one stream from an index on does what the pass over the other does from its image
on. -/
theorem pairsFrom_image (h : Mirrors s s' φ) (n : Nat) :
    ∀ i waiting, i + n = s.size →
      pairsFrom (φ i) (waiting.map (moveWaiting φ)) (s'.kinds.drop (φ i)) =
        (pairsFrom i waiting (s.kinds.drop i)).map (movePair φ) := by
  -- On the tokens that are left of `s`: those of `s'` are more by the line ends that tags leave.
  induction n with
  | zero =>
    intro i waiting hi
    obtain rfl : i = s.size := hi
    have hend : s.kinds.drop s.size = [] := List.drop_eq_nil_of_le (length_kinds s).le
    have hend' : s'.kinds.drop (φ s.size) = [] := by
      rw [h.size]
      exact List.drop_eq_nil_of_le (length_kinds s').le
    rw [hend, hend']
    rfl
  | succ n ih =>
    intro i waiting hi
    obtain ⟨k, hk⟩ := exists_kind? (s := s) (i := i) (by omega)
    have hk' := hk
    rw [← h.kind?_image] at hk'
    rw [drop_kinds hk, drop_kinds hk', Pairing.pairsFrom_cons, Pairing.pairsFrom_cons, step_map,
      h.pairsFrom_succ, ih (i + 1) _ (by omega), List.map_append]
    congr 1
    cases (Pairing.step i waiting k).2 <;> rfl

/-- The pairs of the one stream are the images of those of the other. -/
theorem pairs_image (h : Mirrors s s' φ) :
    Pairing.pairs s'.kinds = (Pairing.pairs s.kinds).map (movePair φ) := by
  have hpairs := h.pairsFrom_image s.size 0 [] (Nat.zero_add _)
  rwa [h.zero] at hpairs

/-- The partner of an image is the image of the partner. -/
theorem partner?_image (h : Mirrors s s' φ) (i : Nat) :
    s'.partner? (φ i) = (s.partner? i).map φ := by
  have hinjective := h.strictMono.injective
  ext j
  rw [Option.map_eq_some_iff, partner?_eq_some_iff, h.pairs_image]
  simp only [partner?_eq_some_iff, List.mem_map, movePair, Prod.mk.injEq, Prod.exists]
  constructor
  · rintro (⟨a, b, hmem, hab, rfl⟩ | ⟨a, b, hmem, rfl, hab⟩)
    · exact ⟨b, .inl (hinjective hab ▸ hmem), rfl⟩
    · exact ⟨a, .inr (hinjective hab ▸ hmem), rfl⟩
  · rintro ⟨k, hmem | hmem, rfl⟩
    · exact .inl ⟨i, k, hmem, rfl, rfl⟩
    · exact .inr ⟨k, i, hmem, rfl, rfl⟩

/-! ## Ranges of indices -/

/-- A range of indices of the other stream falls into the stretches from one image to the next. -/
theorem range'_image (h : Mirrors s s' φ) (a n : Nat) :
    List.range' (φ a) (φ (a + n) - φ a) =
      (List.range' a n).flatMap fun i => List.range' (φ i) (φ (i + 1) - φ i) := by
  induction n with
  | zero => simp
  | succ n ih =>
    have hle := h.strictMono.monotone (Nat.le_add_right a n)
    have hnext := h.strictMono.monotone (Nat.le_succ (a + n))
    have hlength : φ (a + (n + 1)) - φ a = (φ (a + n) - φ a) + (φ (a + n + 1) - φ (a + n)) := by
      rw [← Nat.add_assoc]
      simp only [Nat.succ_eq_add_one] at hnext
      omega
    rw [hlength, ← List.range'_append_1, ih, List.range'_1_concat, List.flatMap_append,
      Nat.add_sub_cancel' hle]
    simp

/-- What is listed for a range of indices, when nothing is listed for a line end that is left. -/
theorem flatMap_range'_image {α : Type} (h : Mirrors s s' φ) {f f' : Nat → List α} {a b : Nat}
    (himage : ∀ i, a ≤ i → i < b → f' (φ i) = f i)
    (hleft : ∀ i, φ (i + 1) = φ i + 2 → f' (φ i + 1) = []) :
    (List.range' (φ a) (φ b - φ a)).flatMap f' = (List.range' a (b - a)).flatMap f := by
  rcases Nat.le_total b a with hba | hab
  · rw [Nat.sub_eq_zero_of_le hba, Nat.sub_eq_zero_of_le (h.strictMono.monotone hba)]
    rfl
  · have hrange := h.range'_image a (b - a)
    rw [Nat.add_sub_cancel' hab] at hrange
    rw [hrange, List.flatMap_assoc]
    refine List.flatMap_congr fun i hi => ?_
    rw [List.mem_range'_1] at hi
    rcases h.succ i with hone | ⟨htwo, -⟩
    · simp [hone, himage i hi.1 (by omega)]
    · simp [htwo, List.range', himage i hi.1 (by omega), hleft i htwo]

/-- What is chosen from a range of indices, when nothing is chosen at a line end that is left. -/
theorem filterMap_range'_image {α : Type} (h : Mirrors s s' φ) {f f' : Nat → Option α} {a b : Nat}
    (himage : ∀ i, a ≤ i → i < b → f' (φ i) = f i)
    (hleft : ∀ i, φ (i + 1) = φ i + 2 → f' (φ i + 1) = none) :
    (List.range' (φ a) (φ b - φ a)).filterMap f' = (List.range' a (b - a)).filterMap f := by
  rw [List.filterMap_eq_flatMap_toList, List.filterMap_eq_flatMap_toList]
  refine h.flatMap_range'_image (fun i hai hib => ?_) fun i htwo => ?_
  · rw [himage i hai hib]
  · rw [hleft i htwo]
    rfl

/-- The indices in a range that fit, when no line end that is left does. -/
theorem filter_range'_image (h : Mirrors s s' φ) {q q' : Nat → Bool} {a b : Nat}
    (himage : ∀ i, a ≤ i → i < b → q' (φ i) = q i)
    (hleft : ∀ i, φ (i + 1) = φ i + 2 → q' (φ i + 1) = false) :
    (List.range' (φ a) (φ b - φ a)).filter q' = ((List.range' a (b - a)).filter q).map φ := by
  rw [← List.filterMap_eq_filter, ← List.filterMap_eq_filter, List.map_filterMap]
  refine h.filterMap_range'_image (fun i hai hib => ?_) fun i htwo => ?_
  · by_cases hi : q i = true
    · simp [Option.guard, himage i hai hib, hi]
    · simp [Option.guard, himage i hai hib, hi]
  · simp [Option.guard, hleft i htwo]

/-- The last index of a range that fits, when no line end that is left does. -/
theorem find?_reverse_range'_image (h : Mirrors s s' φ) {q q' : Nat → Bool} {a b : Nat}
    (himage : ∀ i, a ≤ i → i < b → q' (φ i) = q i)
    (hleft : ∀ i, φ (i + 1) = φ i + 2 → q' (φ i + 1) = false) :
    (List.range' (φ a) (φ b - φ a)).reverse.find? q' =
      ((List.range' a (b - a)).reverse.find? q).map φ := by
  rw [← List.head?_filter, ← List.head?_filter, List.filter_reverse, List.filter_reverse,
    List.head?_reverse, List.head?_reverse, h.filter_range'_image himage hleft, List.getLast?_map]

/-- A line end that is left has no kind but its own. -/
theorem isAt_left (h : Mirrors s s' φ) (hi : φ (i + 1) = φ i + 2) {k : Kind}
    (hk : k ≠ .inlineHtml) : s'.isAt (φ i + 1) k = false := by
  rw [isAt, (h.left hi).2.1]
  simpa using hk.symm

/-- The tags of a doc comment are the images of its tags in the other form. -/
theorem docTags_image (h : Mirrors s s' φ) (i : Nat) : s'.docTags (φ i) = (s.docTags i).map φ := by
  rw [docTags, docTags, h.partner?_image]
  cases s.partner? i with
  | none => rfl
  | some closer =>
    exact h.filter_range'_image (fun i _ _ => h.isAt_image i _) fun i htwo =>
      h.isAt_left htwo (by decide)

/-- The indices of the whole stream. -/
theorem range_size_image (h : Mirrors s s' φ) :
    List.range s'.size = List.range' (φ 0) (φ s.size - φ 0) ∧
      List.range s.size = List.range' 0 (s.size - 0) := by
  rw [h.zero, h.size, Nat.sub_zero, Nat.sub_zero, List.range_eq_range', List.range_eq_range']
  exact ⟨rfl, rfl⟩

end Mirrors

end PhpLint.TokenStream

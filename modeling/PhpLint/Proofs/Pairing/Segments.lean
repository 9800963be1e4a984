import PhpLint.Proofs.Grammar.Pieces
import PhpLint.Proofs.LineEnds.Stream

/-!
# Segments of a stream

What a segment of tokens does to the pairs around it depends on the openers that wait when the pass
reaches it.  A segment that leaves them as they were takes part in no pair around it
(`mem_pairs_insert_iff`), and a segment all of whose delimiters are paired does leave them: it closes what
it opens, and nothing else (`Balanced.isClosed`).

So the delimiters around a balanced segment pair as they would without it, and its own as they do alone,
however unbalanced the rest is (`separates_of_balanced`).
-/

namespace PhpLint

open TokenStream.Mirrors (movePair moveWaiting step_map)

/-- Where an index goes when `n` elements are put in at `start`. -/
def shifted (start n i : Nat) : Nat := if i < start then i else i + n

namespace Pairing

variable {i n start : Nat} {waiting : List Waiting} {kinds xs ys zs : List Kind}

/-! ## What waits after a pass -/

/-- A pass keeps the order. -/
theorem Ordered.waitingAfter (h : Ordered i waiting) (kinds : List Kind) :
    Ordered (i + kinds.length) (waitingAfter i waiting kinds) := by
  induction kinds generalizing i waiting with
  | nil => exact h
  | cons k kinds ih =>
    have hrest := ih (h.step k)
    rwa [Nat.add_assoc, Nat.add_comm 1] at hrest

/-- An opener that waits already, or is still to come. -/
def Due (i : Nat) (waiting : List Waiting) (kinds : List Kind) (w : Waiting) : Prop :=
  w ∈ waiting ∨ i ≤ w.index ∧ kinds[w.index - i]? = some (.opens w.delimiter)

/-- What is to come is the first kind or one behind it. -/
theorem due_cons_iff {k : Kind} {w : Waiting} :
    Due i waiting (k :: kinds) w ↔
      Due (i + 1) waiting kinds w ∨ w.index = i ∧ k = .opens w.delimiter := by
  unfold Due
  rw [or_assoc]
  refine or_congr_right ?_
  rcases Nat.lt_trichotomy w.index i with hlt | heq | hgt
  · constructor
    · intro h
      omega
    · intro h
      omega
  · simp [heq]
  · have hindex : w.index - i = w.index - (i + 1) + 1 := by omega
    have hle : i ≤ w.index := Nat.le_of_lt hgt
    have hne : w.index ≠ i := Nat.ne_of_gt hgt
    simp [hindex, hle, hne, Nat.succ_le_of_lt hgt]

/-- The openers that wait after a pass are those that no pair closes. -/
theorem mem_waitingAfter_iff (h : Ordered i waiting) {w : Waiting} :
    w ∈ waitingAfter i waiting kinds ↔
      Due i waiting kinds w ∧ ∀ e, (w.index, e) ∉ pairsFrom i waiting kinds := by
  induction kinds generalizing i waiting with
  | nil => simp [waitingAfter, pairsFrom, Due]
  | cons k kinds ih =>
    rw [waitingAfter, ih (h.step k), pairsFrom_cons, due_cons_iff]
    rcases step_cases i waiting k with ⟨d, rfl, hstep⟩ | ⟨v, outer, rfl, rfl, hstep⟩ | ⟨hne, hstep⟩
    · have hnew : Due (i + 1) (⟨i, d⟩ :: waiting) kinds w ↔
          Due (i + 1) waiting kinds w ∨ w.index = i ∧ Kind.opens d = .opens w.delimiter := by
        obtain ⟨j, e⟩ := w
        simp only [Due, List.mem_cons, Waiting.mk.injEq, Kind.opens.injEq]
        tauto
      rw [hstep, hnew, Option.toList_none, List.nil_append]
    · -- The pair takes `v` off the stack, and no other opener has its index.
      have hother (hdue : Due (i + 1) outer kinds w) : w.index ≠ v.index := by
        have hv := h.lt List.mem_cons_self
        rcases hdue with hw | ⟨hle, -⟩
        · exact Nat.ne_of_lt (h.inner.lt hw)
        · omega
      rw [hstep, Option.toList_some, List.singleton_append]
      simp only [List.mem_cons, not_or, Prod.mk.injEq]
      constructor
      · rintro ⟨hdue, hnone⟩
        refine ⟨.inl (hdue.imp_left (List.mem_cons_of_mem v)), fun e => ⟨?_, hnone e⟩⟩
        exact fun heq => hother hdue heq.1
      · rintro ⟨hdue, hnone⟩
        refine ⟨?_, fun e => (hnone e).2⟩
        rcases hdue with (hw | hw) | ⟨-, hopens⟩
        · rcases List.mem_cons.1 hw with rfl | hw
          · exact absurd ⟨rfl, rfl⟩ (hnone i).1
          · exact .inl hw
        · exact .inr hw
        · cases hopens
    · simp [hstep, hne]

/-- Behind a pass that starts with nothing, the kinds that wait are the openers without a pair. -/
theorem mem_waitingAfter_nil_iff {w : Waiting} :
    w ∈ waitingAfter 0 [] kinds ↔
      kinds[w.index]? = some (.opens w.delimiter) ∧ ∀ e, (w.index, e) ∉ pairs kinds := by
  rw [mem_waitingAfter_iff ordered_nil, Due]
  simp [pairs]

/-! ## Segments -/

/-- The pass does the same at indices that all lie further on. -/
theorem pairsFrom_map {φ : Nat → Nat} (hφ : ∀ j, i ≤ j → φ (j + 1) = φ j + 1)
    (waiting : List Waiting) (kinds : List Kind) :
    pairsFrom (φ i) (waiting.map (moveWaiting φ)) kinds =
      (pairsFrom i waiting kinds).map (movePair φ) := by
  induction kinds generalizing i waiting with
  | nil => rfl
  | cons k kinds ih =>
    have hrest := ih (i := i + 1) (fun j hj => hφ j (by omega)) (step i waiting k).1
    rw [hφ i (Nat.le_refl i)] at hrest
    rw [pairsFrom_cons, pairsFrom_cons, step_map, hrest, List.map_append]
    cases (step i waiting k).2 <;> rfl

/-- Openers below those that a list closes play no part in the pass over it. -/
theorem pairsFrom_of_closesAll {inner : List Waiting}
    (h : closesAll (inner.map Waiting.delimiter) kinds = true) (i : Nat) (outer : List Waiting) :
    pairsFrom i (inner ++ outer) kinds = pairsFrom i inner kinds := by
  induction kinds generalizing i inner with
  | nil => rfl
  | cons k kinds ih =>
    rw [pairsFrom_cons, pairsFrom_cons]
    cases hk : k.isDelimiter with
    | false =>
      rw [closesAll_cons_of_plain hk] at h
      have hstep (waiting : List Waiting) : step i waiting k = (waiting, none) := by
        cases k <;> first | rfl | cases hk
      rw [hstep, hstep, ih h]
    | true =>
      cases k
      case opens d =>
        have hopen : closesAll (List.map Waiting.delimiter (⟨i, d⟩ :: inner)) kinds = true := h
        exact congrArg _ (ih hopen (i + 1))
      case closes d =>
        cases inner with
        | nil => cases h
        | cons w inner =>
          rw [List.map_cons, closesAll, Bool.and_eq_true, beq_iff_eq] at h
          rw [List.cons_append, step, step, if_pos h.1, if_pos h.1, ih h.2]
      all_goals cases hk

/-- A list in which every delimiter is paired, and every opener that waits before it, closes them all. -/
theorem closesAll_of_paired (hordered : Ordered i waiting)
    (hopeners : ∀ w, Due i waiting kinds w → ∃ e, (w.index, e) ∈ pairsFrom i waiting kinds)
    (hclosers : ∀ j d, i ≤ j → kinds[j - i]? = some (.closes d) →
      ∃ o, (o, j) ∈ pairsFrom i waiting kinds) :
    closesAll (waiting.map Waiting.delimiter) kinds = true := by
  induction kinds generalizing i waiting with
  | nil =>
    cases waiting with
    | nil => rfl
    | cons w outer =>
      obtain ⟨e, he⟩ := hopeners w (.inl List.mem_cons_self)
      cases he
  | cons k kinds ih =>
    -- A pair whose closer is still to come is none that the first kind completes.
    have hlater (hnow : ∀ pair ∈ (step i waiting k).2, pair.2 = i) (j : Nat) (d : Delimiter)
        (hj : i + 1 ≤ j) (hd : kinds[j - (i + 1)]? = some (.closes d)) :
        ∃ o, (o, j) ∈ pairsFrom (i + 1) (step i waiting k).1 kinds := by
      have hindex : j - i = j - (i + 1) + 1 := by omega
      obtain ⟨o, ho⟩ := hclosers j d (by omega) (by rw [hindex, List.getElem?_cons_succ, hd])
      rw [pairsFrom_cons, List.mem_append, Option.mem_toList] at ho
      refine ⟨o, ho.resolve_left fun hpair => ?_⟩
      have heq : j = i := hnow _ hpair
      omega
    have hstepped := hordered.step k
    rcases step_cases i waiting k with ⟨d, rfl, hstep⟩ | ⟨v, outer, rfl, rfl, hstep⟩ | ⟨hne, hstep⟩
    · rw [hstep] at hlater hstepped
      rw [pairsFrom_cons, hstep, Option.toList_none, List.nil_append] at hopeners
      refine ih hstepped (fun w hw => hopeners w ?_) (hlater fun _ hpair => by cases hpair)
      rw [due_cons_iff]
      rcases hw with hw | hw
      · rcases List.mem_cons.1 hw with rfl | hw
        · exact .inr ⟨rfl, rfl⟩
        · exact .inl (.inl hw)
      · exact .inl (.inr hw)
    · rw [hstep] at hlater hstepped
      rw [pairsFrom_cons, hstep, Option.toList_some, List.singleton_append] at hopeners
      rw [List.map_cons, closesAll, beq_self_eq_true, Bool.true_and]
      refine ih hstepped (fun w hw => ?_) (hlater fun pair hpair => ?_)
      · obtain ⟨e, he⟩ := hopeners w (due_cons_iff.2 (.inl (hw.imp_left (List.mem_cons_of_mem v))))
        refine ⟨e, (List.mem_cons.1 he).resolve_left fun heq => ?_⟩
        have hv := hordered.lt List.mem_cons_self
        have heq : w.index = v.index := congrArg Prod.fst heq
        rcases hw with hw | ⟨hle, -⟩
        · exact Nat.ne_of_lt (hordered.inner.lt hw) heq
        · omega
      · rw [← Option.some.inj hpair]
    · rw [hstep] at hlater hstepped
      rw [pairsFrom_cons, hstep, Option.toList_none, List.nil_append] at hopeners hclosers
      cases hk : k.isDelimiter with
      | false =>
        rw [closesAll_cons_of_plain hk]
        refine ih hstepped (fun w hw => hopeners w ?_) (hlater fun _ hpair => by cases hpair)
        exact due_cons_iff.2 (.inl hw)
      | true =>
        cases k
        case opens d => exact absurd rfl (hne d)
        case closes d =>
          -- A closer that nothing waits for has no pair, against the assumption.
          obtain ⟨o, ho⟩ := hclosers i d (Nat.le_refl i) (by simp)
          exact absurd (fits_of_mem_pairsFrom ho).1 (Nat.not_succ_le_self i)
        all_goals cases hk

/-- A list in which every delimiter is paired closes what it opens, and nothing else. -/
theorem isClosed_of_paired
    (hopeners : ∀ j d, kinds[j]? = some (.opens d) → ∃ e, (j, e) ∈ pairs kinds)
    (hclosers : ∀ j d, kinds[j]? = some (.closes d) → ∃ o, (o, j) ∈ pairs kinds) :
    IsClosed kinds := by
  refine closesAll_of_paired ordered_nil (fun w hw => ?_) fun j d _ hd => hclosers j d hd
  rcases hw with hw | ⟨-, hopens⟩
  · cases hw
  · exact hopeners w.index w.delimiter hopens

/-- The pairs in front of a segment stay where they are. -/
theorem map_shifted_pairs (xs : List Kind) (n : Nat) :
    (pairs xs).map (movePair (shifted xs.length n)) = pairs xs := by
  refine (List.map_congr_left fun pair hpair => ?_).trans (List.map_id _)
  obtain ⟨hlt, d, -, hcloser⟩ := lt_of_mem_pairs hpair
  have hlength := (List.getElem?_eq_some_iff.1 hcloser).1
  simp only [movePair, shifted, id, if_pos hlength, if_pos (Nat.lt_trans hlt hlength)]

/-- So do the openers that wait there. -/
theorem map_shifted_waitingAfter (xs : List Kind) (n : Nat) :
    (waitingAfter 0 [] xs).map (moveWaiting (shifted xs.length n)) = waitingAfter 0 [] xs := by
  refine (List.map_congr_left fun w hw => ?_).trans (List.map_id _)
  have hlt := (ordered_nil.waitingAfter xs).lt hw
  rw [Nat.zero_add] at hlt
  simp only [moveWaiting, shifted, id, if_pos hlt]

/-- **A segment that leaves the waiting openers as they were** takes part in no pair around it, and the
pairs around it are those without it. -/
theorem mem_pairs_insert_iff
    (hkeeps : waitingAfter xs.length (waitingAfter 0 [] xs) ys = waitingAfter 0 [] xs)
    {pair : Nat × Nat} :
    pair ∈ pairs (xs ++ ys ++ zs) ↔
      pair ∈ pairsFrom xs.length (waitingAfter 0 [] xs) ys ∨
        pair ∈ (pairs (xs ++ zs)).map (movePair (shifted xs.length ys.length)) := by
  have hbehind (j : Nat) (hj : xs.length ≤ j) :
      shifted xs.length ys.length (j + 1) = shifted xs.length ys.length j + 1 := by
    simp only [shifted, if_neg (Nat.not_lt.2 hj), if_neg (Nat.not_lt.2 (Nat.le_succ_of_le hj))]
    omega
  have hstart : shifted xs.length ys.length xs.length = xs.length + ys.length :=
    if_neg (Nat.lt_irrefl _)
  have hback := pairsFrom_map hbehind (waitingAfter 0 [] xs) zs
  rw [hstart, map_shifted_waitingAfter] at hback
  have hwhole : pairs (xs ++ ys ++ zs) =
      pairs xs ++ (pairsFrom xs.length (waitingAfter 0 [] xs) ys ++
        pairsFrom (xs.length + ys.length) (waitingAfter 0 [] xs) zs) := by
    rw [pairs, List.append_assoc, pairsFrom_append, Nat.zero_add, pairsFrom_append, hkeeps, pairs]
  have hrest : pairs (xs ++ zs) = pairs xs ++ pairsFrom xs.length (waitingAfter 0 [] xs) zs := by
    rw [pairs, pairsFrom_append, Nat.zero_add, pairs]
  rw [hwhole, hrest, List.map_append, map_shifted_pairs, hback]
  simp only [List.mem_append]
  exact or_left_comm

/-- In a segment that is closed the pass finds the pairs that it finds in the segment alone. -/
theorem pairsFrom_of_isClosed (h : IsClosed kinds) (start : Nat) (waiting : List Waiting) :
    pairsFrom start waiting kinds = (pairs kinds).map (movePair (start + ·)) := by
  have hnone : closesAll (List.map Waiting.delimiter []) kinds = true := h
  have halone := pairsFrom_map (i := 0) (φ := (start + ·)) (fun _ _ => rfl) [] kinds
  rw [pairs, ← halone]
  exact pairsFrom_of_closesAll hnone start waiting

end Pairing

namespace TokenStream

variable {s : TokenStream} {i j : Nat} {xs ys zs : List Token}

theorem kinds_ofList (ts : List Token) : (ofList ts).kinds = ts.map Token.kind := rfl

theorem size_ofList (ts : List Token) : (ofList ts).size = ts.length := rfl

/-! ## Balanced segments -/

/-- Every delimiter of the stream is paired. -/
def Balanced (s : TokenStream) : Prop :=
  ∀ i, s.has i Kind.isDelimiter = true → (s.partner? i).isSome = true

/-- A stream is balanced when each of its delimiters has a partner. -/
theorem balanced_iff :
    s.Balanced ↔ ∀ i, i < s.size → s.has i Kind.isDelimiter = true → (s.partner? i).isSome = true :=
  ⟨fun h i _ => h i, fun h i hi => h i (lt_size_of_has hi) hi⟩

instance (s : TokenStream) : Decidable s.Balanced := decidable_of_iff _ balanced_iff.symm

/-- A balanced stream closes what it opens, and nothing else. -/
theorem Balanced.isClosed (h : s.Balanced) : IsClosed s.kinds := by
  have hpaired {i : Nat} {k : Kind} (hk : s.kinds[i]? = some k) (hdelimiter : k.isDelimiter = true) :
      ∃ j, (i, j) ∈ Pairing.pairs s.kinds ∨ (j, i) ∈ Pairing.pairs s.kinds := by
    rw [getElem?_kinds] at hk
    obtain ⟨j, hj⟩ := Option.isSome_iff_exists.1 (h i (by rw [has, hk]; exact hdelimiter))
    exact ⟨j, partner?_eq_some_iff.1 hj⟩
  refine Pairing.isClosed_of_paired (fun i d hi => ?_) fun i d hi => ?_
  · obtain ⟨j, hpair | hpair⟩ := hpaired hi rfl
    · exact ⟨j, hpair⟩
    · obtain ⟨-, e, -, hcloser⟩ := Pairing.lt_of_mem_pairs hpair
      cases hi.symm.trans hcloser
  · obtain ⟨j, hpair | hpair⟩ := hpaired hi rfl
    · obtain ⟨-, e, hopener, -⟩ := Pairing.lt_of_mem_pairs hpair
      cases hi.symm.trans hopener
    · exact ⟨j, hpair⟩

/-- What is no delimiter has no partner. -/
theorem partner?_eq_none_of_plain (h : s.has i Kind.isDelimiter = false) : s.partner? i = none := by
  by_contra hsome
  obtain ⟨j, hj⟩ := Option.ne_none_iff_exists'.1 hsome
  rcases partner?_eq_some_iff.1 hj with hpair | hpair
  · obtain ⟨-, d, hopener, -⟩ := kind?_of_mem_pairs hpair
    rw [has, hopener] at h
    cases h
  · obtain ⟨-, d, -, hcloser⟩ := kind?_of_mem_pairs hpair
    rw [has, hcloser] at h
    cases h

/-- A balanced list of tokens from an index on, all of whose pairs are pairs of the stream, pairs as it
does alone. -/
theorem partner?_of_balanced {start : Nat} (h : (ofList ys).Balanced)
    (hkind : ∀ i, i < ys.length → s.kind? (start + i) = (ofList ys).kind? i)
    (hpairs : ∀ pair ∈ (Pairing.pairs (ys.map Token.kind)).map (movePair (start + ·)),
      pair ∈ Pairing.pairs s.kinds) (hi : i < ys.length) :
    s.partner? (start + i) = ((ofList ys).partner? i).map (start + ·) := by
  cases hpartner : (ofList ys).partner? i with
  | some j =>
    rw [Option.map_some, partner?_eq_some_iff]
    exact (partner?_eq_some_iff.1 hpartner).imp
      (fun hpair => hpairs _ (List.mem_map.2 ⟨_, hpair, rfl⟩))
      fun hpair => hpairs _ (List.mem_map.2 ⟨_, hpair, rfl⟩)
  | none =>
    refine partner?_eq_none_of_plain ?_
    rw [has, hkind i hi, ← has]
    by_contra hdelimiter
    have hsome := h i (eq_true_of_ne_false hdelimiter)
    rw [hpartner] at hsome
    cases hsome

theorem shifted_injective {start n : Nat} (h : shifted start n i = shifted start n j) : i = j := by
  unfold shifted at h
  split at h <;> split at h <;> omega

/-- No index goes to one of those that are put in. -/
theorem shifted_outside (start n i : Nat) :
    shifted start n i < start ∨ start + n ≤ shifted start n i := by
  unfold shifted
  split <;> omega

/-- Around a list of tokens that leaves the waiting openers as they were, and whose pairs lie in it, the
rest pairs as it does without the list. -/
theorem partner?_shifted
    (hkeeps : Pairing.waitingAfter xs.length (Pairing.waitingAfter 0 [] (xs.map Token.kind))
      (ys.map Token.kind) = Pairing.waitingAfter 0 [] (xs.map Token.kind))
    (hends : ∀ pair ∈ Pairing.pairsFrom xs.length
      (Pairing.waitingAfter 0 [] (xs.map Token.kind)) (ys.map Token.kind),
      xs.length ≤ pair.1 ∧ pair.1 < xs.length + ys.length ∧
        xs.length ≤ pair.2 ∧ pair.2 < xs.length + ys.length) (zs : List Token) (i : Nat) :
    (ofList (xs ++ ys ++ zs)).partner? (shifted xs.length ys.length i) =
      ((ofList (xs ++ zs)).partner? i).map (shifted xs.length ys.length) := by
  have hinsert (pair : Nat × Nat) :
      pair ∈ Pairing.pairs (xs.map Token.kind ++ ys.map Token.kind ++ zs.map Token.kind) ↔ _ :=
    Pairing.mem_pairs_insert_iff (by rwa [List.length_map])
  simp only [List.length_map, ← List.map_append] at hinsert
  have houtside := shifted_outside xs.length ys.length i
  ext j
  rw [Option.map_eq_some_iff]
  simp only [partner?_eq_some_iff, kinds_ofList, hinsert, List.mem_map, movePair, Prod.exists,
    Prod.mk.injEq]
  constructor
  · rintro ((hinside | ⟨a, b, hmem, ha, hb⟩) | (hinside | ⟨a, b, hmem, ha, hb⟩))
    · have := hends _ hinside
      omega
    · exact ⟨b, .inl (shifted_injective ha ▸ hmem), hb⟩
    · have := hends _ hinside
      omega
    · exact ⟨a, .inr (shifted_injective hb ▸ hmem), ha⟩
  · rintro ⟨k, hmem | hmem, rfl⟩
    · exact .inl (.inr ⟨i, k, hmem, rfl, rfl⟩)
    · exact .inr (.inr ⟨k, i, hmem, rfl, rfl⟩)

/-- A token in the middle of a list keeps its kind. -/
theorem kind?_middle (xs ys zs : List Token) (hi : i < ys.length) :
    (ofList (xs ++ ys ++ zs)).kind? (xs.length + i) = (ofList ys).kind? i := by
  rw [← getElem?_kinds, ← getElem?_kinds, kinds_ofList, kinds_ofList, List.getElem?_map,
    List.getElem?_map, List.append_assoc, List.getElem?_append_right (Nat.le_add_right _ _),
    Nat.add_sub_cancel_left, List.getElem?_append_left hi]

/-- A balanced list in the middle of another pairs as it does alone. -/
theorem Balanced.partner?_middle (h : (ofList ys).Balanced) (xs zs : List Token)
    (hi : i < ys.length) :
    (ofList (xs ++ ys ++ zs)).partner? (xs.length + i) =
      ((ofList ys).partner? i).map (xs.length + ·) := by
  have hclosed : IsClosed (ys.map Token.kind) := h.isClosed
  have hkeeps := Pairing.waitingAfter_of_isClosed hclosed xs.length
    (Pairing.waitingAfter 0 [] (xs.map Token.kind))
  refine partner?_of_balanced h (fun i hi => kind?_middle xs ys zs hi) (fun pair hpair => ?_) hi
  rw [kinds_ofList, List.map_append, List.map_append, Pairing.mem_pairs_insert_iff]
  · left
    rwa [List.length_map, Pairing.pairsFrom_of_isClosed hclosed]
  · rwa [List.length_map]

/-- The own pairs of a list of tokens lie in it. -/
theorem own_pairs_inside (ys : List Token) (start : Nat) {pair : Nat × Nat}
    (h : pair ∈ (Pairing.pairs (ys.map Token.kind)).map (movePair (start + ·))) :
    start ≤ pair.1 ∧ pair.1 < start + ys.length ∧ start ≤ pair.2 ∧ pair.2 < start + ys.length := by
  obtain ⟨⟨o, c⟩, hmem, rfl⟩ := List.mem_map.1 h
  have hsize := lt_size_of_partner? (s := ofList ys) (partner?_eq_some_iff.2 (.inl hmem))
  rw [size_ofList] at hsize
  simp only [movePair]
  omega

/-! ## What a segment separates -/

/-- A segment at index `start` of a stream pairs its delimiters as it does alone, and the rest of the
stream as it does without the segment. -/
structure Separates (whole segment rest : TokenStream) (start : Nat) : Prop where
  inside : ∀ i, i < segment.size →
    whole.partner? (start + i) = (segment.partner? i).map (start + ·)
  outside : ∀ i, whole.partner? (shifted start segment.size i) =
    (rest.partner? i).map (shifted start segment.size)
  /-- No pair has one end in the segment and one outside of it. -/
  apart : ∀ i j, whole.partner? i = some j →
    (start ≤ i ∧ i < start + segment.size ↔ start ≤ j ∧ j < start + segment.size)

/-- **Balanced segments are invisible to the pairing.**  Put in between any two lists of tokens,
balanced or not, they pair as they do alone, and all the rest as it does without them. -/
theorem separates_of_balanced (xs zs : List Token) (h : (ofList ys).Balanced) :
    Separates (ofList (xs ++ ys ++ zs)) (ofList ys) (ofList (xs ++ zs)) xs.length := by
  have hclosed : IsClosed (ys.map Token.kind) := h.isClosed
  have hkeeps := Pairing.waitingAfter_of_isClosed hclosed xs.length
    (Pairing.waitingAfter 0 [] (xs.map Token.kind))
  -- An end in the segment has its other end there: it is that of the segment alone.
  have hstays {i j : Nat} (hpair : (ofList (xs ++ ys ++ zs)).partner? i = some j)
      (hi : xs.length ≤ i ∧ i < xs.length + ys.length) :
      xs.length ≤ j ∧ j < xs.length + ys.length := by
    obtain ⟨k, rfl⟩ := Nat.exists_eq_add_of_le hi.1
    rw [h.partner?_middle xs zs (by omega), Option.map_eq_some_iff] at hpair
    obtain ⟨l, hl, rfl⟩ := hpair
    have hsize := (lt_size_of_partner? hl).2
    rw [size_ofList] at hsize
    omega
  refine ⟨fun i hi => h.partner?_middle xs zs hi, fun i => ?_, fun i j hpair => ?_⟩
  · refine partner?_shifted hkeeps (fun pair hpair => ?_) zs i
    rw [Pairing.pairsFrom_of_isClosed hclosed] at hpair
    exact own_pairs_inside ys xs.length hpair
  · have hback := (wellPaired (ofList (xs ++ ys ++ zs))).symm i j hpair
    exact ⟨hstays hpair, hstays hback⟩

/-- The tokens of a text that lexes, without the tag in front of them. -/
def tokensOf (source : String) : List Token :=
  ((Token.ofSource ("<?php\n" ++ source).toList).toOption.getD []).tail

/-- A body between an opener that nothing closes and closers that nothing opens: the body is invisible,
and the brackets around it meet across it as they do without it. -/
theorem separates_of_balanced_body :
    ((ofList (tokensOf "\x7b f($a[0]); /** @var int */ \x7d")).Balanced ∧
      ¬(ofList (tokensOf "g([")).Balanced ∧ ¬(ofList (tokensOf "]\x7d); )")).Balanced) ∧
    (ofList (tokensOf "g([" ++ tokensOf "]\x7d); )")).partner? 2 = some 3 ∧
    Separates
      (ofList (tokensOf "g([" ++ tokensOf "\x7b f($a[0]); /** @var int */ \x7d" ++ tokensOf "]\x7d); )"))
      (ofList (tokensOf "\x7b f($a[0]); /** @var int */ \x7d"))
      (ofList (tokensOf "g([" ++ tokensOf "]\x7d); )")) (tokensOf "g([").length := by
  have hbalanced : (ofList (tokensOf "\x7b f($a[0]); /** @var int */ \x7d")).Balanced := by
    decide +kernel
  refine ⟨⟨hbalanced, ?_, ?_⟩, ?_, separates_of_balanced _ _ hbalanced⟩
  · decide +kernel
  · decide +kernel
  · decide +kernel

end TokenStream

end PhpLint

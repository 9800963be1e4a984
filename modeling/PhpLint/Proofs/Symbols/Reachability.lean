import Mathlib.Order.Lattice.Nat
import PhpLint.Proofs.Text.Letters
import PhpLint.Symbol.Ancestry

/-!
# Ancestors are what declarations lead to

The ancestors of a type are found by a search that strikes out each name it lists.  This file says
what they are without the search.  A name **leads** to another in so many steps, each from the
declaration in force for a name to one of its parents or interfaces, and the **distance** of a name
is the least number of steps that reach it in any spelling.

The search meets names level by level.  A `Frontier` describes the queue between two steps: first
names of the level that is being listed, then names of the next one, and every other name of these
levels is listed already.  One step keeps such a queue (`Frontier.list`, `Frontier.skip`), and a
queue without names of its first level is one of the next (`Frontier.shift`).  So names are listed
in the order of their distances, also where declarations refer to each other in a circle.
-/

namespace PhpLint

/-! ## Spellings of a name -/

namespace Text

theorem sameLetters_refl (s : Text) : sameLetters s s = true := sameLetters_iff.2 rfl

theorem sameLetters_symm {s t : Text} (h : sameLetters s t = true) : sameLetters t s = true :=
  sameLetters_iff.2 (sameLetters_iff.1 h).symm

/-- Spellings of one name are spellings of each other. -/
theorem sameLetters_trans {s t u : Text} (h : sameLetters s t = true)
    (h' : sameLetters t u = true) : sameLetters s u = true :=
  sameLetters_iff.2 ((sameLetters_iff.1 h).trans (sameLetters_iff.1 h'))

end Text

theorem beq_backslash_comp_toLower : (· == '\\') ∘ Char.toLower = (· == '\\') :=
  comp_toLower (by decide)

/-- Only the separator has the separator for its lower case. -/
theorem toLower_eq_backslash_iff (c : Char) : c.toLower = '\\' ↔ c = '\\' := by
  rw [← beq_iff_eq, ← beq_iff_eq (a := c), ← congrFun beq_backslash_comp_toLower c]
  rfl

/-- Separators in front are taken off before or after the letters are folded. -/
theorem foldCase_stripLeading (name : Text) :
    Text.foldCase (stripLeading name) = stripLeading (Text.foldCase name) := by
  rw [Text.foldCase, stripLeading, Text.trimStartOf, stripLeading, Text.trimStartOf, Text.foldCase,
    List.dropWhile_map, beq_backslash_comp_toLower]

/-- Two texts name the same type: the separators in front and the case of ASCII letters do not
count. -/
def SameName (m n : Text) : Prop := Text.sameLetters (stripLeading m) (stripLeading n) = true

/-- A list holds a name in some spelling. -/
def Lists (names : List Text) (name : Text) : Prop :=
  ∃ other ∈ names, Text.sameLetters other name = true

/-- A search up to case finds a name when the list holds it in some spelling. -/
theorem any_sameLetters_iff {names : List Text} {name : Text} :
    names.any (Text.sameLetters · name) = true ↔ Lists names name :=
  List.any_eq_true

theorem lists_of_mem {names : List Text} {name : Text} (h : name ∈ names) : Lists names name :=
  ⟨name, h, Text.sameLetters_refl name⟩

/-- A list that holds one spelling holds every other. -/
theorem Lists.congr {names : List Text} {m n : Text} (h : Lists names m)
    (hsame : Text.sameLetters m n = true) : Lists names n := by
  obtain ⟨other, hmem, hother⟩ := h
  exact ⟨other, hmem, Text.sameLetters_trans hother hsame⟩

/-- A list holds a name when its first name or one of the others is a spelling. -/
theorem lists_cons_iff {first name : Text} {names : List Text} :
    Lists (first :: names) name ↔ Text.sameLetters first name = true ∨ Lists names name := by
  simp [Lists]

theorem lists_append_iff {xs ys : List Text} {name : Text} :
    Lists (xs ++ ys) name ↔ Lists xs name ∨ Lists ys name := by
  simp [Lists, or_and_right, exists_or]

namespace SymbolTable

/-- To strike a name out is to strike out all of its spellings. -/
theorem lists_strike_iff {name other : Text} {names : List Text} :
    Lists (strike name names) other ↔
      Lists names other ∧ Text.sameLetters name other = false := by
  simp only [Lists, strike, List.mem_filter, Bool.not_eq_true']
  constructor
  · rintro ⟨n, ⟨hmem, hne⟩, hsame⟩
    refine ⟨⟨n, hmem, hsame⟩, Bool.eq_false_iff.2 fun h => ?_⟩
    rw [Text.sameLetters_trans hsame (Text.sameLetters_symm h)] at hne
    cases hne
  · rintro ⟨⟨n, hmem, hsame⟩, hne⟩
    refine ⟨n, ⟨hmem, Bool.eq_false_iff.2 fun h => ?_⟩, hsame⟩
    rw [Text.sameLetters_trans (Text.sameLetters_symm h) hsame] at hne
    cases hne

variable {t : SymbolTable} {c name : Text}

/-- A look-up is the same for all spellings. -/
theorem get?_congr {m n : Text} (h : Text.sameLetters m n = true) : t.get? m = t.get? n := by
  simp only [get?, Text.sameLetters, foldCase_stripLeading, Text.sameLetters_iff.1 h]

/-- The parents and interfaces are the same for all spellings. -/
theorem supertypesOf_congr {m n : Text} (h : Text.sameLetters m n = true) :
    t.supertypesOf m = t.supertypesOf n := by
  rw [supertypesOf, supertypesOf, get?_congr h]

/-- What a declaration refers to is among all that is referred to. -/
theorem mem_allSupertypes {m : Text} (h : m ∈ t.supertypesOf name) : m ∈ t.allSupertypes := by
  cases hget : t.get? name with
  | none => simp [supertypesOf, hget] at h
  | some symbol =>
    simp only [supertypesOf, hget, Option.map_some, Option.getD_some] at h
    exact List.mem_flatMap.2 ⟨symbol, mem_symbols_of_get? hget, h⟩

/-! ## Steps between names -/

/-- The declaration in force for a name refers to another as a parent or as an interface. -/
def RefersTo (t : SymbolTable) (m n : Text) : Prop :=
  ∃ symbol, t.get? m = some symbol ∧ (n ∈ symbol.parents ∨ n ∈ symbol.interfaces)

/-- A name leads to another along so many steps, each from a name to one that its declaration refers
to. -/
inductive Leads (t : SymbolTable) (c : Text) : Nat → Text → Prop
  | direct {n : Text} (h : t.RefersTo c n) : Leads t c 1 n
  | step {k : Nat} {m n : Text} (h : Leads t c k m) (hn : t.RefersTo m n) : Leads t c (k + 1) n

/-- What the search puts into its queue for a name is what the declaration of the name refers to. -/
theorem mem_supertypesOf_iff {m n : Text} : n ∈ t.supertypesOf m ↔ t.RefersTo m n := by
  cases hget : t.get? m with
  | none => simp [supertypesOf, RefersTo, hget]
  | some symbol => simp [supertypesOf, RefersTo, hget, TypeSymbol.supertypes]

/-- The least number of steps that lead to a name in some spelling. -/
noncomputable def distance (t : SymbolTable) (c n : Text) : Nat :=
  sInf {k | ∃ m, t.Leads c k m ∧ Text.sameLetters m n = true}

/-- What a name leads to is referred to. -/
theorem Leads.mem_allSupertypes {k : Nat} {n : Text} (h : t.Leads c k n) :
    n ∈ t.allSupertypes := by
  cases h with
  | direct h => exact SymbolTable.mem_allSupertypes (mem_supertypesOf_iff.2 h)
  | step _ h => exact SymbolTable.mem_allSupertypes (mem_supertypesOf_iff.2 h)

/-- What a name leads to is listed among all that is referred to. -/
theorem Leads.lists_allSupertypes {k : Nat} {n : Text} (h : t.Leads c k n) :
    Lists t.allSupertypes n :=
  lists_of_mem h.mem_allSupertypes

/-! ## What the search lists -/

/-- What is listed is in the queue, or some steps lead to it from there. -/
theorem leads_of_mem_search {unlisted queue : List Text} (hqueue : ∀ q ∈ queue, ∃ k, t.Leads c k q)
    {n : Text} (hn : n ∈ t.search unlisted queue) : ∃ k, t.Leads c k n := by
  fun_induction search t unlisted queue with
  | case1 => cases hn
  | case2 unlisted name rest hlisted ih =>
    obtain ⟨k, hname⟩ := hqueue name List.mem_cons_self
    rcases List.mem_cons.1 hn with rfl | hn
    · exact ⟨k, hname⟩
    · refine ih (fun q hq => ?_) hn
      rcases List.mem_append.1 hq with hq | hq
      · exact hqueue q (List.mem_cons_of_mem _ hq)
      · exact ⟨k + 1, hname.step (mem_supertypesOf_iff.1 hq)⟩
  | case3 unlisted name rest hlisted ih =>
    exact ih (fun q hq => hqueue q (List.mem_cons_of_mem _ hq)) hn

/-- The search lists only what was unlisted. -/
theorem lists_of_mem_search {unlisted queue : List Text} {n : Text}
    (hn : n ∈ t.search unlisted queue) : Lists unlisted n := by
  fun_induction search t unlisted queue with
  | case1 => cases hn
  | case2 unlisted name rest hlisted ih =>
    rcases List.mem_cons.1 hn with rfl | hn
    · exact any_sameLetters_iff.1 hlisted
    · exact (lists_strike_iff.1 (ih hn)).1
  | case3 unlisted name rest hlisted ih => exact ih hn

/-- No two names that are listed are spellings of one. -/
theorem pairwise_search (t : SymbolTable) (unlisted queue : List Text) :
    (t.search unlisted queue).Pairwise fun m n => Text.sameLetters m n = false := by
  fun_induction search t unlisted queue with
  | case1 => exact List.Pairwise.nil
  | case2 unlisted name rest hlisted ih =>
    exact List.pairwise_cons.2 ⟨fun n hn => (lists_strike_iff.1 (lists_of_mem_search hn)).2, ih⟩
  | case3 unlisted name rest hlisted ih => exact ih

/-- The search ends: it lists no more names than it might list. -/
theorem length_search_le (t : SymbolTable) (unlisted queue : List Text) :
    (t.search unlisted queue).length ≤ unlisted.length := by
  fun_induction search t unlisted queue with
  | case1 => exact Nat.zero_le _
  | case2 unlisted name rest hlisted ih =>
    have hlt := length_strike_lt hlisted
    rw [List.length_cons]
    omega
  | case3 unlisted name rest hlisted ih => exact ih

/-- The search lists every name of its queue that it may still list. -/
theorem lists_search_of_mem {unlisted queue : List Text} {n : Text} (hn : n ∈ queue)
    (hunlisted : Lists unlisted n) : Lists (t.search unlisted queue) n := by
  fun_induction search t unlisted queue with
  | case1 => cases hn
  | case2 unlisted name rest hlisted ih =>
    rw [lists_cons_iff]
    cases hsame : Text.sameLetters name n with
    | true => exact .inl rfl
    | false =>
      rcases List.mem_cons.1 hn with rfl | hn
      · rw [Text.sameLetters_refl] at hsame
        cases hsame
      · exact .inr (ih (List.mem_append_left _ hn) (lists_strike_iff.2 ⟨hunlisted, hsame⟩))
  | case3 unlisted name rest hlisted ih =>
    rcases List.mem_cons.1 hn with rfl | hn
    · exact absurd (any_sameLetters_iff.2 hunlisted) hlisted
    · exact ih hn hunlisted

/-- With a name the search lists its supertypes, as far as it may still list them. -/
theorem lists_search_of_supertype {unlisted queue : List Text} {m n : Text}
    (hm : m ∈ t.search unlisted queue) (hn : n ∈ t.supertypesOf m) (hunlisted : Lists unlisted n) :
    Lists (t.search unlisted queue) n := by
  fun_induction search t unlisted queue with
  | case1 => cases hm
  | case2 unlisted name rest hlisted ih =>
    rw [lists_cons_iff]
    cases hsame : Text.sameLetters name n with
    | true => exact .inl rfl
    | false =>
      have hstill : Lists (strike name unlisted) n := lists_strike_iff.2 ⟨hunlisted, hsame⟩
      rcases List.mem_cons.1 hm with rfl | hm
      · exact .inr (lists_search_of_mem (List.mem_append_right _ hn) hstill)
      · exact .inr (ih hm hstill)
  | case3 unlisted name rest hlisted ih => exact ih hm hunlisted

/-- The search from the supertypes of a type lists whatever the type leads to. -/
theorem Leads.lists_search {k : Nat} {n : Text} (h : t.Leads c k n) :
    Lists (t.search t.allSupertypes (t.supertypesOf c)) n := by
  induction h with
  | direct h =>
    exact lists_search_of_mem (mem_supertypesOf_iff.2 h) (Leads.direct h).lists_allSupertypes
  | step h hn ih =>
    obtain ⟨other, hother, hsame⟩ := ih
    have hmem := mem_supertypesOf_iff.2 hn
    rw [← supertypesOf_congr hsame] at hmem
    exact lists_search_of_supertype hother hmem (h.step hn).lists_allSupertypes

/-! ## The order of the search -/

/-- The queue of the search between two steps: `near` holds names at distance `d` and `far` names a
step further, and of all names up to this level only those in `near` are still to be listed. -/
structure Frontier (t : SymbolTable) (c : Text) (d : Nat) (unlisted near far : List Text) :
    Prop where
  pos : 0 < d
  near_leads : ∀ q ∈ near, t.Leads c d q
  far_leads : ∀ q ∈ far, t.Leads c (d + 1) q
  below : ∀ k n, t.Leads c k n → k < d → ¬Lists unlisted n
  level : ∀ n, t.Leads c d n → Lists unlisted n → Lists near n
  /-- The supertypes of a listed name are listed or in the queue. -/
  closed : ∀ k n, t.Leads c k n → ¬Lists unlisted n →
    ∀ m ∈ t.supertypesOf n, Lists unlisted m → Lists (near ++ far) m

namespace Frontier

variable {d : Nat} {unlisted near far : List Text}

/-- At the start the queue holds the names at distance one. -/
theorem start (t : SymbolTable) (c : Text) :
    Frontier t c 1 t.allSupertypes (t.supertypesOf c) [] := by
  constructor
  case pos => exact Nat.one_pos
  case near_leads => exact fun q hq => .direct (mem_supertypesOf_iff.1 hq)
  case far_leads => exact fun q hq => absurd hq List.not_mem_nil
  case below =>
    intro k n h hk
    cases h with
    | direct _ => omega
    | step h _ => cases h <;> omega
  case level =>
    intro n h _
    cases h with
    | direct h => exact lists_of_mem (mem_supertypesOf_iff.2 h)
    | step h _ => cases h
  case closed => exact fun k n h hlisted => absurd h.lists_allSupertypes hlisted

/-- A level whose names are all listed gives way to the next. -/
theorem shift (h : Frontier t c d unlisted [] far) : Frontier t c (d + 1) unlisted far [] := by
  have hlisted (n : Text) (hn : t.Leads c d n) : ¬Lists unlisted n := by
    intro hunlisted
    obtain ⟨other, hother, -⟩ := h.level n hn hunlisted
    cases hother
  constructor
  case pos => exact Nat.succ_pos d
  case near_leads => exact h.far_leads
  case far_leads => exact fun q hq => absurd hq List.not_mem_nil
  case below =>
    intro k n hn hk
    rcases Nat.lt_succ_iff_lt_or_eq.1 hk with hk | rfl
    · exact h.below k n hn hk
    · exact hlisted n hn
  case level =>
    intro n hn hunlisted
    cases hn with
    | direct _ => exact absurd h.pos (Nat.lt_irrefl 0)
    | step hm hn => exact h.closed d _ hm (hlisted _ hm) n (mem_supertypesOf_iff.2 hn) hunlisted
  case closed =>
    intro k n hn hn' m hm hunlisted
    rw [List.append_nil]
    exact h.closed k n hn hn' m hm hunlisted

/-- The first name of the queue is one of the level that is being listed, here or one level on. -/
theorem exists_cons {first : Text} {rest : List Text} (h : Frontier t c d unlisted near far)
    (hqueue : first :: rest = near ++ far) :
    ∃ e near' far', d ≤ e ∧ rest = near' ++ far' ∧
      Frontier t c e unlisted (first :: near') far' := by
  cases near with
  | nil =>
    rw [List.nil_append] at hqueue
    subst hqueue
    exact ⟨d + 1, rest, [], Nat.le_succ d, (List.append_nil rest).symm, h.shift⟩
  | cons n near =>
    obtain ⟨rfl, rfl⟩ := List.cons.inj hqueue
    exact ⟨d, near, far, Nat.le_refl d, rfl, h⟩

/-- Listing a name puts its supertypes at the end of the queue. -/
theorem list (h : Frontier t c d unlisted (name :: near) far) :
    Frontier t c d (strike name unlisted) near (far ++ t.supertypesOf name) := by
  have hname : t.Leads c d name := h.near_leads name List.mem_cons_self
  constructor
  case pos => exact h.pos
  case near_leads => exact fun q hq => h.near_leads q (List.mem_cons_of_mem _ hq)
  case far_leads =>
    intro q hq
    rcases List.mem_append.1 hq with hq | hq
    · exact h.far_leads q hq
    · exact hname.step (mem_supertypesOf_iff.1 hq)
  case below => exact fun k n hn hk hunlisted => h.below k n hn hk (lists_strike_iff.1 hunlisted).1
  case level =>
    intro n hn hunlisted
    obtain ⟨hunlisted, hne⟩ := lists_strike_iff.1 hunlisted
    rcases lists_cons_iff.1 (h.level n hn hunlisted) with hsame | hnear
    · rw [hsame] at hne
      cases hne
    · exact hnear
  case closed =>
    intro k n hn hlisted m hm hunlisted
    obtain ⟨hunlisted, hne⟩ := lists_strike_iff.1 hunlisted
    rw [← List.append_assoc, lists_append_iff]
    cases hsame : Text.sameLetters name n with
    | true =>
      rw [← supertypesOf_congr hsame] at hm
      exact .inr (lists_of_mem hm)
    | false =>
      left
      have hlisted : ¬Lists unlisted n := fun hn' => hlisted (lists_strike_iff.2 ⟨hn', hsame⟩)
      have hqueue := h.closed k n hn hlisted m hm hunlisted
      rw [List.cons_append, lists_cons_iff, hne] at hqueue
      simpa using hqueue

/-- A name that is listed already leaves the queue. -/
theorem skip (h : Frontier t c d unlisted (name :: near) far) (hlisted : ¬Lists unlisted name) :
    Frontier t c d unlisted near far := by
  have hne {n : Text} (hn : Lists unlisted n) : ¬Text.sameLetters name n = true := fun hsame =>
    hlisted (hn.congr (Text.sameLetters_symm hsame))
  constructor
  case pos => exact h.pos
  case near_leads => exact fun q hq => h.near_leads q (List.mem_cons_of_mem _ hq)
  case far_leads => exact h.far_leads
  case below => exact h.below
  case level =>
    intro n hn hunlisted
    exact (lists_cons_iff.1 (h.level n hn hunlisted)).resolve_left (hne hunlisted)
  case closed =>
    intro k n hn hn' m hm hunlisted
    have hqueue := h.closed k n hn hn' m hm hunlisted
    rw [List.cons_append, lists_cons_iff] at hqueue
    exact hqueue.resolve_left (hne hunlisted)

/-- What is still to be listed is no nearer than the level that is being listed. -/
theorem le_distance (h : Frontier t c d unlisted near far) {n : Text} {k : Nat}
    (hn : t.Leads c k n) (hunlisted : Lists unlisted n) : d ≤ t.distance c n := by
  have hfound : {k | ∃ m, t.Leads c k m ∧ Text.sameLetters m n = true}.Nonempty :=
    ⟨k, n, hn, Text.sameLetters_refl n⟩
  refine le_csInf hfound ?_
  rintro k' ⟨m, hm, hsame⟩
  by_contra hlt
  exact h.below k' m hm (Nat.lt_of_not_le hlt) (hunlisted.congr (Text.sameLetters_symm hsame))

/-- A name of the first level is no further than that level. -/
theorem distance_le (h : Frontier t c d unlisted (name :: near) far) : t.distance c name ≤ d :=
  Nat.sInf_le ⟨name, h.near_leads name List.mem_cons_self, Text.sameLetters_refl name⟩

/-- The name of the type leads to all that stands in the queue. -/
theorem exists_leads (h : Frontier t c d unlisted near far) :
    ∀ q ∈ near ++ far, ∃ k, t.Leads c k q := by
  intro q hq
  rcases List.mem_append.1 hq with hq | hq
  · exact ⟨d, h.near_leads q hq⟩
  · exact ⟨d + 1, h.far_leads q hq⟩

/-- From a frontier on, names are listed in the order of their distances. -/
theorem pairwise_distance {queue : List Text} (h : Frontier t c d unlisted near far)
    (hqueue : queue = near ++ far) :
    (t.search unlisted queue).Pairwise fun m n => t.distance c m ≤ t.distance c n := by
  fun_induction search t unlisted queue generalizing d near far with
  | case1 => exact List.Pairwise.nil
  | case2 unlisted first rest hlisted ih =>
    obtain ⟨e, near, far, -, rfl, hfirst⟩ := h.exists_cons hqueue
    have hrest := hfirst.list
    refine List.pairwise_cons.2 ⟨fun n hn => ?_, ih hrest (List.append_assoc near far _)⟩
    rw [List.append_assoc] at hn
    obtain ⟨k, hleads⟩ := leads_of_mem_search hrest.exists_leads hn
    exact hfirst.distance_le.trans (hrest.le_distance hleads (lists_of_mem_search hn))
  | case3 unlisted first rest hlisted ih =>
    obtain ⟨e, near, far, -, rfl, hfirst⟩ := h.exists_cons hqueue
    exact ih (hfirst.skip fun hn => hlisted (any_sameLetters_iff.2 hn)) rfl

end Frontier

/-! ## Ancestries -/

/-- The names of an ancestry are what the search lists. -/
theorem names_ancestors (t : SymbolTable) (c : Text) :
    (t.ancestors c).names = t.search t.allSupertypes (t.supertypesOf c) := by
  cases h : t.get? c with
  | none => simp [ancestors, h, supertypesOf, search]
  | some symbol => simp [ancestors, h, supertypesOf]

/-- Each name of an ancestry is led to. -/
theorem leads_of_mem_ancestors {n : Text} (h : n ∈ (t.ancestors c).names) :
    ∃ k, t.Leads c k n := by
  rw [names_ancestors] at h
  exact leads_of_mem_search (fun q hq => ⟨1, .direct (mem_supertypesOf_iff.1 hq)⟩) h

/-- What is led to is listed in the ancestry, in some spelling. -/
theorem Leads.lists_ancestors {k : Nat} {n : Text} (h : t.Leads c k n) :
    Lists (t.ancestors c).names n := by
  rw [names_ancestors]
  exact h.lists_search

/-- An ancestry is complete when the type and all names in it are known. -/
theorem complete_ancestors_iff :
    (t.ancestors c).complete = true ↔
      (t.get? c).isSome ∧ ∀ n ∈ (t.ancestors c).names, (t.get? n).isSome := by
  cases h : t.get? c with
  | none => simp [ancestors, h]
  | some symbol => simp [ancestors, h]

/-- What a type's ancestry has to be, said of the declarations alone. -/
structure ExactAncestry (t : SymbolTable) (c : Text) (a : Ancestry) : Prop where
  unknown : t.get? c = none → a = ⟨[], false⟩
  /-- Every name listed is one that the type leads to, as some declaration spells it. -/
  sound : ∀ n ∈ a.names, ∃ k, t.Leads c k n
  /-- Every name that the type leads to is listed in some spelling. -/
  covers : ∀ k n, t.Leads c k n → Lists a.names n
  distinct : a.names.Pairwise fun m n => Text.sameLetters m n = false
  nearestFirst : a.names.Pairwise fun m n => t.distance c m ≤ t.distance c n
  complete_iff : a.complete = true ↔ (t.get? c).isSome ∧ ∀ n ∈ a.names, (t.get? n).isSome
  /-- There are no more names than references in the table. -/
  length_le : a.names.length ≤ t.allSupertypes.length

/-- **Ancestors are reachability.**  For every table and every name, declarations may be missing
and refer to each other in a circle, the ancestry is exact. -/
theorem ancestors_exact (t : SymbolTable) (c : Text) : ExactAncestry t c (t.ancestors c) := by
  constructor
  case unknown =>
    intro h
    simp [ancestors, h]
  case sound => exact fun n hn => leads_of_mem_ancestors hn
  case covers => exact fun k n h => h.lists_ancestors
  case distinct =>
    rw [names_ancestors]
    exact pairwise_search t _ _
  case nearestFirst =>
    rw [names_ancestors]
    exact (Frontier.start t c).pairwise_distance (List.append_nil _).symm
  case complete_iff => exact complete_ancestors_iff
  case length_le =>
    rw [names_ancestors]
    exact length_search_le t _ _

/-- A class and its parent refer to each other, and the parent has an interface whose own interface is
declared nowhere. -/
def circle : SymbolTable :=
  ⟨[⟨"App\\A".toList, .classType, ["app\\b".toList], [], [], []⟩,
    ⟨"App\\B".toList, .classType, ["APP\\A".toList], ["I".toList], [], []⟩,
    ⟨"I".toList, .interfaceType, [], ["J".toList], [], []⟩]⟩

/-- The class is among its own ancestors, at the level of the interface, and nothing is listed twice.
Of the name that is not declared there are no ancestors. -/
theorem ancestors_exact_circle :
    ExactAncestry circle "\\app\\a".toList
        ⟨["app\\b".toList, "APP\\A".toList, "I".toList, "J".toList], false⟩ ∧
      ExactAncestry circle "J".toList ⟨[], false⟩ ∧
      circle.Leads "\\app\\a".toList 3 "J".toList ∧ ¬∃ k n, circle.Leads "J".toList k n := by
  have hclass : circle.ancestors "\\app\\a".toList =
      ⟨["app\\b".toList, "APP\\A".toList, "I".toList, "J".toList], false⟩ := by decide +kernel
  have hunknown : circle.ancestors "J".toList = ⟨[], false⟩ := by decide +kernel
  have hexact := ancestors_exact circle "J".toList
  rw [hunknown] at hexact
  refine ⟨hclass ▸ ancestors_exact circle "\\app\\a".toList, hexact, ?_, ?_⟩
  · have hparent : circle.RefersTo "\\app\\a".toList "app\\b".toList :=
      mem_supertypesOf_iff.1 (by decide +kernel)
    have hinterface : circle.RefersTo "app\\b".toList "I".toList :=
      mem_supertypesOf_iff.1 (by decide +kernel)
    exact ((Leads.direct hparent).step hinterface).step (mem_supertypesOf_iff.1 (by decide +kernel))
  · rintro ⟨k, n, hn⟩
    obtain ⟨other, hother, -⟩ := hexact.covers k n hn
    cases hother

end SymbolTable

end PhpLint

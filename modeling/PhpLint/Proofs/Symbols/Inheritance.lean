import PhpLint.Proofs.Symbols.Reachability

/-!
# What is known of an inherited method

Whether an ancestor declares a method is asked with three answers.  This file says which answer is
given, without the search and without its merging of partial answers.

A type **uses** another in so many steps, each from the declaration in force for a name to a trait
that it uses.  Yes means that at most sixteen uses lead from an ancestor to a declaration of the
method.  No means that there is no such declaration and that nothing was left out: all ancestors and
the traits reached from them are declared, and no ancestor starts seventeen uses in a row.  In all
other cases there is no answer.

The depth of the search is the number of uses it may still follow, so both answers follow by one
induction on it (`declaresMethod_eq_some_true_iff`, `declaresMethod_eq_some_false_iff`).
-/

namespace PhpLint.SymbolTable

variable {t : SymbolTable} {c method : Text}

/-! ## Merging answers -/

/-- The merged answer is yes when one of the answers is. -/
theorem anyKnown_eq_some_true_iff {answer : Text → Option Bool} {names : List Text} :
    anyKnown answer names = some true ↔ ∃ n ∈ names, answer n = some true := by
  induction names with
  | nil => simp [anyKnown]
  | cons name names ih =>
    rw [anyKnown]
    cases hanswer : answer name with
    | none => simp [hanswer, ih]
    | some b => cases b <;> simp [hanswer, ih]

/-- The merged answer is no when all of the answers are. -/
theorem anyKnown_eq_some_false_iff {answer : Text → Option Bool} {names : List Text} :
    anyKnown answer names = some false ↔ ∀ n ∈ names, answer n = some false := by
  induction names with
  | nil => simp [anyKnown]
  | cons name names ih =>
    rw [anyKnown]
    cases hanswer : answer name with
    | none => simp [hanswer]
    | some b => cases b <;> simp [hanswer, ih]

/-! ## Uses of traits -/

/-- The traits that the declaration in force for a name uses. -/
def traitsOf (t : SymbolTable) (name : Text) : List Text :=
  ((t.get? name).map TypeSymbol.traits).getD []

/-- The traits of a name are those of its declaration. -/
theorem traitsOf_eq {name : Text} {symbol : TypeSymbol} (h : t.get? name = some symbol) :
    t.traitsOf name = symbol.traits := by
  simp [traitsOf, h]

/-- A name uses another in so many steps, each from the declaration in force for a name to one of
its traits. -/
inductive Uses (t : SymbolTable) : Nat → Text → Text → Prop
  | refl (n : Text) : Uses t 0 n n
  | step {k : Nat} {m used n : Text} (hused : used ∈ t.traitsOf m) (h : Uses t k used n) :
      Uses t (k + 1) m n

/-- In no step a name uses itself alone. -/
theorem uses_zero_iff {m n : Text} : t.Uses 0 m n ↔ m = n := by
  constructor
  · intro h
    cases h
    rfl
  · rintro rfl
    exact .refl m

/-- One step more starts at a trait of the name. -/
theorem uses_succ_iff {k : Nat} {m n : Text} :
    t.Uses (k + 1) m n ↔ ∃ used ∈ t.traitsOf m, t.Uses k used n := by
  constructor
  · intro h
    cases h with
    | step hused h => exact ⟨_, hused, h⟩
  · rintro ⟨used, hused, h⟩
    exact .step hused h

/-- The declaration in force for a name has the method among its own, up to the case of ASCII
letters. -/
def Declares (t : SymbolTable) (method n : Text) : Prop :=
  ∃ symbol, t.get? n = some symbol ∧
    ∃ m ∈ symbol.methods, Text.foldCase m = Text.foldCase method

/-- A name declares the methods of its declaration. -/
theorem declares_iff {n : Text} {symbol : TypeSymbol} (h : t.get? n = some symbol) :
    t.Declares method n ↔ symbol.declares method = true := by
  simp [Declares, TypeSymbol.declares, Text.sameLetters_iff, h]

/-- What uses a trait is known. -/
theorem isSome_of_uses_succ {k : Nat} {m n : Text} (h : t.Uses (k + 1) m n) :
    (t.get? m).isSome = true := by
  obtain ⟨used, hused, -⟩ := uses_succ_iff.1 h
  cases hget : t.get? m with
  | none => simp [traitsOf, hget] at hused
  | some symbol => rfl

/-! ## The search through traits -/

/-- Yes is answered when fewer uses than the depth lead to a declaration of the method. -/
theorem declaresMethod_eq_some_true_iff {depth : Nat} {name : Text} :
    t.declaresMethod method depth name = some true ↔
      ∃ k < depth, ∃ n, t.Uses k name n ∧ t.Declares method n := by
  induction depth generalizing name with
  | zero => simp [declaresMethod]
  | succ depth ih =>
    rw [declaresMethod]
    constructor
    · intro h
      cases hget : t.get? name with
      | none => simp [hget] at h
      | some symbol =>
        simp only [hget] at h
        split at h
        · next hdeclares =>
          exact ⟨0, Nat.succ_pos depth, name, .refl name, (declares_iff hget).2 hdeclares⟩
        · obtain ⟨used, hused, h⟩ := anyKnown_eq_some_true_iff.1 h
          obtain ⟨k, hk, n, huses, hn⟩ := ih.1 h
          rw [← traitsOf_eq hget] at hused
          exact ⟨k + 1, Nat.succ_lt_succ hk, n, .step hused huses, hn⟩
    · rintro ⟨k, hk, n, huses, hn⟩
      cases k with
      | zero =>
        obtain rfl := uses_zero_iff.1 huses
        have ⟨symbol, hget, _⟩ := hn
        have hdeclares := (declares_iff hget).1 hn
        simp [hget, hdeclares]
      | succ k =>
        obtain ⟨symbol, hget⟩ := Option.isSome_iff_exists.1 (isSome_of_uses_succ huses)
        obtain ⟨used, hused, huses⟩ := uses_succ_iff.1 huses
        rw [traitsOf_eq hget] at hused
        have htrait : t.declaresMethod method depth used = some true :=
          ih.2 ⟨k, Nat.lt_of_succ_lt_succ hk, n, huses, hn⟩
        simp only [hget]
        split
        · rfl
        · exact anyKnown_eq_some_true_iff.2 ⟨used, hused, htrait⟩

/-- No is answered when all that fewer uses lead to is known and does not declare the method, and no row
of uses is as long as the depth. -/
theorem declaresMethod_eq_some_false_iff {depth : Nat} {name : Text} :
    t.declaresMethod method depth name = some false ↔
      (∀ k < depth, ∀ n, t.Uses k name n → (t.get? n).isSome ∧ ¬t.Declares method n) ∧
        ∀ n, ¬t.Uses depth name n := by
  induction depth generalizing name with
  | zero =>
    -- A name uses itself in no step, so a search that may follow none never answers no.
    simp only [declaresMethod, reduceCtorEq, false_iff, not_and, not_forall, not_not]
    exact fun _ => ⟨name, .refl name⟩
  | succ depth ih =>
    rw [declaresMethod]
    constructor
    · intro h
      cases hget : t.get? name with
      | none => simp [hget] at h
      | some symbol =>
        simp only [hget] at h
        split at h
        · cases h
        · next hdeclares =>
          have htraits := anyKnown_eq_some_false_iff.1 h
          rw [← traitsOf_eq hget] at htraits
          constructor
          · intro k hk n huses
            cases k with
            | zero =>
              obtain rfl := uses_zero_iff.1 huses
              rw [declares_iff hget]
              exact ⟨by simp [hget], hdeclares⟩
            | succ k =>
              obtain ⟨used, hused, huses⟩ := uses_succ_iff.1 huses
              exact (ih.1 (htraits used hused)).1 k (Nat.lt_of_succ_lt_succ hk) n huses
          · intro n huses
            obtain ⟨used, hused, huses⟩ := uses_succ_iff.1 huses
            exact (ih.1 (htraits used hused)).2 n huses
    · rintro ⟨hknown, hshallow⟩
      obtain ⟨hsome, hdeclares⟩ := hknown 0 (Nat.succ_pos depth) name (.refl name)
      obtain ⟨symbol, hget⟩ := Option.isSome_iff_exists.1 hsome
      rw [declares_iff hget] at hdeclares
      simp only [hget, hdeclares]
      refine anyKnown_eq_some_false_iff.2 fun used hused => ih.2 ⟨?_, ?_⟩
      · rw [← traitsOf_eq hget] at hused
        exact fun k hk n huses => hknown (k + 1) (Nat.succ_lt_succ hk) n (.step hused huses)
      · rw [← traitsOf_eq hget] at hused
        exact fun n huses => hshallow n (.step hused huses)

/-- The spelling of a name does not matter to the search through traits. -/
theorem declaresMethod_congr {depth : Nat} {m n : Text} (h : Text.sameLetters m n = true) :
    t.declaresMethod method depth m = t.declaresMethod method depth n := by
  cases depth with
  | zero => rfl
  | succ depth => rw [declaresMethod, declaresMethod, get?_congr h]

/-! ## The answer -/

/-- A name is that of a parent or an interface of a type, or of theirs in turn. -/
def IsAncestor (t : SymbolTable) (c a : Text) : Prop := ∃ k, t.Leads c k a

/-- At most sixteen trait uses lead from an ancestor of a known type to a declaration of the
method. -/
def Inherits (t : SymbolTable) (c method : Text) : Prop :=
  (t.get? c).isSome ∧ ∃ a, t.IsAncestor c a ∧ ∃ k ≤ 16, ∃ n, t.Uses k a n ∧ t.Declares method n

/-- A known type inherits no method of the name, and nothing about it is left out. -/
structure RulesOut (t : SymbolTable) (c method : Text) : Prop where
  known : (t.get? c).isSome
  undeclared : ¬t.Inherits c method
  ancestors : ∀ a, t.IsAncestor c a → (t.get? a).isSome
  traits : ∀ a k n, t.IsAncestor c a → t.Uses k a n → (t.get? n).isSome
  /-- No ancestor starts seventeen trait uses in a row. -/
  shallow : ∀ a n, t.IsAncestor c a → ¬t.Uses 17 a n

/-- A chain of uses has a chain of every smaller number of uses at its front. -/
theorem Uses.exists_of_le {k l : Nat} {m n : Text} (h : t.Uses l m n) (hkl : k ≤ l) :
    ∃ n', t.Uses k m n' := by
  induction h generalizing k with
  | refl m =>
    obtain rfl := Nat.le_zero.1 hkl
    exact ⟨m, .refl m⟩
  | @step l m used n hused h ih =>
    cases k with
    | zero => exact ⟨m, .refl m⟩
    | succ k =>
      obtain ⟨n', hn'⟩ := ih (Nat.le_of_succ_le_succ hkl)
      exact ⟨n', .step hused hn'⟩

/-- What is ruled out is declared at the end of no chain of uses, however long. -/
theorem RulesOut.not_declares (h : t.RulesOut c method) {a n : Text} {k : Nat}
    (ha : t.IsAncestor c a) (huses : t.Uses k a n) : ¬t.Declares method n := by
  intro hn
  rcases Nat.lt_or_ge k 17 with hk | hk
  · exact h.undeclared ⟨h.known, a, ha, k, Nat.le_of_lt_succ hk, n, huses, hn⟩
  · obtain ⟨n', hn'⟩ := huses.exists_of_le hk
    exact h.shallow a n' ha hn'

/-- An ancestor is listed, in another spelling perhaps. -/
theorem exists_mem_ancestors {a : Text} (h : t.IsAncestor c a) :
    ∃ b ∈ (t.ancestors c).names, Text.sameLetters b a = true := by
  obtain ⟨k, h⟩ := h
  exact h.lists_ancestors

/-- An ancestry is complete when the type and all its ancestors are known. -/
theorem complete_iff_isAncestor :
    (t.ancestors c).complete = true ↔
      (t.get? c).isSome ∧ ∀ a, t.IsAncestor c a → (t.get? a).isSome := by
  rw [complete_ancestors_iff]
  refine and_congr_right fun _ => ⟨fun h a ha => ?_, fun h a ha => h a (leads_of_mem_ancestors ha)⟩
  obtain ⟨b, hb, hsame⟩ := exists_mem_ancestors ha
  rw [← get?_congr hsame]
  exact h b hb

/-- Yes is answered when the method is inherited. -/
theorem inheritsMethod_eq_some_true_iff :
    t.inheritsMethod c method = some true ↔ t.Inherits c method := by
  have hanswer : t.inheritsMethod c method = some true ↔ (t.get? c).isSome ∧
      ∃ a ∈ (t.ancestors c).names, t.declaresMethod method (traitDepth + 1) a = some true := by
    rw [← anyKnown_eq_some_true_iff, inheritsMethod]
    cases t.get? c with
    | none => simp
    | some symbol => grind
  rw [hanswer, Inherits]
  refine and_congr_right fun _ => ⟨?_, ?_⟩
  · rintro ⟨a, ha, h⟩
    obtain ⟨k, hk, n, huses, hn⟩ := declaresMethod_eq_some_true_iff.1 h
    exact ⟨a, leads_of_mem_ancestors ha, k, Nat.le_of_lt_succ hk, n, huses, hn⟩
  · rintro ⟨a, ha, k, hk, n, huses, hn⟩
    obtain ⟨b, hb, hsame⟩ := exists_mem_ancestors ha
    refine ⟨b, hb, ?_⟩
    rw [declaresMethod_congr hsame]
    exact declaresMethod_eq_some_true_iff.2 ⟨k, Nat.lt_succ_of_le hk, n, huses, hn⟩

/-- No is answered when it is ruled out. -/
theorem inheritsMethod_eq_some_false_iff :
    t.inheritsMethod c method = some false ↔ t.RulesOut c method := by
  have hanswer : t.inheritsMethod c method = some false ↔ (t.ancestors c).complete = true ∧
      ∀ a ∈ (t.ancestors c).names, t.declaresMethod method (traitDepth + 1) a = some false := by
    rw [← anyKnown_eq_some_false_iff, inheritsMethod]
    cases hget : t.get? c with
    | none => simp [ancestors, hget]
    | some symbol => grind
  rw [hanswer, complete_iff_isAncestor]
  constructor
  · rintro ⟨⟨hknown, hancestors⟩, hno⟩
    have hfalse (a : Text) (ha : t.IsAncestor c a) :
        t.declaresMethod method (traitDepth + 1) a = some false := by
      obtain ⟨b, hb, hsame⟩ := exists_mem_ancestors ha
      rw [← declaresMethod_congr hsame]
      exact hno b hb
    have hshallow (a n : Text) (ha : t.IsAncestor c a) : ¬t.Uses 17 a n :=
      (declaresMethod_eq_some_false_iff.1 (hfalse a ha)).2 n
    constructor
    case known => exact hknown
    case undeclared =>
      rintro ⟨-, a, ha, k, hk, n, huses, hn⟩
      have hall := (declaresMethod_eq_some_false_iff.1 (hfalse a ha)).1
      exact (hall k (Nat.lt_succ_of_le hk) n huses).2 hn
    case ancestors => exact hancestors
    case traits =>
      intro a k n ha huses
      rcases Nat.lt_or_ge k 17 with hk | hk
      · exact ((declaresMethod_eq_some_false_iff.1 (hfalse a ha)).1 k hk n huses).1
      · -- A longer chain has one of seventeen uses at its front.
        obtain ⟨n', hn'⟩ := huses.exists_of_le hk
        exact absurd hn' (hshallow a n' ha)
    case shallow => exact hshallow
  · intro h
    refine ⟨⟨h.known, h.ancestors⟩, fun a ha => ?_⟩
    have ha := leads_of_mem_ancestors ha
    refine declaresMethod_eq_some_false_iff.2 ⟨fun k hk n huses => ?_, fun n => h.shallow a n ha⟩
    refine ⟨h.traits a k n ha huses, fun hn => ?_⟩
    exact h.undeclared ⟨h.known, a, ha, k, Nat.le_of_lt_succ hk, n, huses, hn⟩

/-- What is declared for a class is all that matters. -/
theorem inheritsMethod_congr {d : Text} (h : t.get? c = t.get? d) :
    t.inheritsMethod c method = t.inheritsMethod d method := by
  rw [inheritsMethod, inheritsMethod, ancestors, ancestors, h]

/-- **An inherited method is known exactly.**  The answer is yes where an ancestor or its traits
declare the method, no where this is ruled out, and open in all other cases. -/
theorem inheritsMethod_exact (t : SymbolTable) (c method : Text) :
    (t.inheritsMethod c method = some true ↔ t.Inherits c method) ∧
      (t.inheritsMethod c method = some false ↔ t.RulesOut c method) ∧
      (t.inheritsMethod c method = none ↔ ¬t.Inherits c method ∧ ¬t.RulesOut c method) := by
  refine ⟨inheritsMethod_eq_some_true_iff, inheritsMethod_eq_some_false_iff, ?_⟩
  rw [← inheritsMethod_eq_some_true_iff, ← inheritsMethod_eq_some_false_iff]
  cases t.inheritsMethod c method with
  | none => simp
  | some b => cases b <;> simp

/-- Two classes that extend each other, one of them with a trait; a class with an interface that is
declared nowhere; and a class whose parent has a trait that uses itself. -/
def relatives : SymbolTable :=
  ⟨[⟨"A".toList, .classType, ["B".toList], [], [], ["own".toList]⟩,
    ⟨"B".toList, .classType, ["A".toList], [], ["T".toList], []⟩,
    ⟨"T".toList, .traitType, [], [], [], ["Run".toList]⟩,
    ⟨"C".toList, .classType, ["B".toList], ["Missing".toList], [], []⟩,
    ⟨"D".toList, .classType, ["E".toList], [], [], []⟩,
    ⟨"E".toList, .classType, [], [], ["U".toList], []⟩,
    ⟨"U".toList, .traitType, [], [], ["U".toList], []⟩]⟩

/-- A circle of classes does not stand in the way of an answer, and what is found counts although
something else is unknown.  A name that is declared nowhere leaves the question open, and so does a
circle of traits. -/
theorem inheritsMethod_exact_relatives :
    relatives.Inherits "a".toList "RUN".toList ∧ relatives.Inherits "A".toList "own".toList ∧
      relatives.RulesOut "A".toList "stop".toList ∧ relatives.Inherits "C".toList "run".toList ∧
      (¬relatives.Inherits "C".toList "stop".toList ∧
        ¬relatives.RulesOut "C".toList "stop".toList) ∧
      (¬relatives.Inherits "D".toList "run".toList ∧ ¬relatives.RulesOut "D".toList "run".toList) := by
  have hexact (c method : String) := inheritsMethod_exact relatives c.toList method.toList
  exact ⟨(hexact "a" "RUN").1.1 (by decide +kernel), (hexact "A" "own").1.1 (by decide +kernel),
    (hexact "A" "stop").2.1.1 (by decide +kernel), (hexact "C" "run").1.1 (by decide +kernel),
    (hexact "C" "stop").2.2.1 (by decide +kernel), (hexact "D" "run").2.2.1 (by decide +kernel)⟩

end PhpLint.SymbolTable

import PhpLint.Extension.Registry
import PhpLint.Proofs.Directive.RoundTrip
import PhpLint.Proofs.Symbols.Reachability

/-!
# The first extension that fits

A registry answers a call by the first of its extensions that handles it (`Decides`), and not at all where
none does.  Class names are compared in some spelling (`Respelled`), method names as they are.  Extensions
that are registered later stand behind, so they are asked only for what had no answer before:
`AnswersFirst` says all that, and `answersFirst` that it holds of every registry.

A document with a list of factory methods gives the registry of its entries in their order, unless an
entry lacks a class or methods; then the first such entry is reported with its index
(`answersFirst_ofText`).
-/

namespace PhpLint

/-! ## Names of classes -/

/-- Two spellings of one class name: they differ in the case of their letters and in the separators in
front. -/
def Respelled (m n : Text) : Prop :=
  ∃ j k core core', m = List.replicate j '\\' ++ core ∧ n = List.replicate k '\\' ++ core' ∧
    Text.sameLetters core core' = true

/-- A name is some separators and what is left when they are stripped. -/
theorem exists_replicate_stripLeading (name : Text) :
    ∃ j, name = List.replicate j '\\' ++ stripLeading name := by
  obtain ⟨front, hname, hfront⟩ := Text.exists_append_trimStartOf (· == '\\') name
  have hall : front = List.replicate front.length '\\' :=
    List.eq_replicate_of_mem fun c hc => beq_iff_eq.1 (hfront c hc)
  exact ⟨front.length, by rw [← hall]; exact hname⟩

/-- Separators put in front of a name are stripped with its own. -/
theorem stripLeading_replicate_append (j : Nat) (name : Text) :
    stripLeading (List.replicate j '\\' ++ name) = stripLeading name := by
  apply Text.trimStartOf_append_of_all
  intro c hc
  exact beq_iff_eq.2 (List.eq_of_mem_replicate hc)

/-- Two names are spellings of one exactly if the look-up of types takes them for the same. -/
theorem respelled_iff {m n : Text} : Respelled m n ↔ SameName m n := by
  constructor
  · rintro ⟨j, k, core, core', rfl, rfl, hsame⟩
    rw [SameName, stripLeading_replicate_append, stripLeading_replicate_append,
      Text.sameLetters_iff, foldCase_stripLeading, foldCase_stripLeading, Text.sameLetters_iff.1 hsame]
  · intro h
    obtain ⟨j, hm⟩ := exists_replicate_stripLeading m
    obtain ⟨k, hn⟩ := exists_replicate_stripLeading n
    exact ⟨j, k, stripLeading m, stripLeading n, hm, hn, h⟩

/-! ## One extension -/

/-- The extension is for the class, and it says the type of the method. -/
structure Extension.Handles (e : Extension) (className method : Text) : Prop where
  className : Respelled e.className className
  method : e.supports method = true

/-- An entry handles the methods that it lists, for its class in any spelling. -/
theorem FactoryMethods.handles_iff {f : FactoryMethods} {className method : Text} :
    f.toExtension.Handles className method ↔
      Respelled f.className className ∧ method ∈ f.methods := by
  constructor
  · intro h
    exact ⟨h.className, List.contains_iff_mem.1 h.method⟩
  · intro ⟨hclass, hmethod⟩
    exact ⟨hclass, List.contains_iff_mem.2 hmethod⟩

namespace Registry

variable {r : Registry} {es : List Extension} {e : Extension} {className method : Text}
  {c : MethodCall} {scope : Scope} {type : InferredType}

/-- The test that the search makes is whether the extension handles the method. -/
theorem handles_iff : handles className method e = true ↔ e.Handles className method := by
  rw [handles, Bool.and_eq_true]
  constructor
  · intro ⟨hclass, hmethod⟩
    exact ⟨respelled_iff.2 hclass, hmethod⟩
  · intro h
    exact ⟨respelled_iff.1 h.className, h.method⟩

/-- The test is the same for every spelling of the class. -/
theorem handles_congr {other : Text} (h : Respelled className other) :
    handles other method = handles className method := by
  have hcore := Text.sameLetters_iff.1 (respelled_iff.1 h)
  funext e
  rw [handles, handles, Text.sameLetters, Text.sameLetters, hcore]

/-! ## The first one -/

/-- The extension is the first of a list that handles the method of the class. -/
structure Decides (es : List Extension) (className method : Text) (e : Extension) : Prop where
  handles : e.Handles className method
  first : ∃ before after, es = before ++ e :: after ∧ ∀ b ∈ before, ¬b.Handles className method

/-- The search finds the extension that decides. -/
theorem find?_handles_eq_some_iff :
    es.find? (handles className method) = some e ↔ Decides es className method e := by
  have hnot (b : Extension) :
      (!handles className method b) = true ↔ ¬b.Handles className method := by
    rw [Bool.not_eq_true', ← handles_iff, Bool.not_eq_true]
  simp only [List.find?_eq_some_iff_append, handles_iff, hnot]
  constructor
  · intro ⟨hhandles, before, after, hes, hbefore⟩
    exact ⟨hhandles, before, after, hes, hbefore⟩
  · intro ⟨hhandles, before, after, hes, hbefore⟩
    exact ⟨hhandles, before, after, hes, hbefore⟩

/-- A call has the type that the deciding extension says. -/
theorem resolve_eq_some_iff :
    r.resolve className method c scope = some type ↔
      ∃ e, Decides r.extensions className method e ∧ e.typeOf method c scope = type := by
  simp only [resolve, Option.map_eq_some_iff, find?_handles_eq_some_iff]

/-- A call has no type exactly if no extension handles it. -/
theorem resolve_eq_none_iff :
    r.resolve className method c scope = none ↔
      ∀ e ∈ r.extensions, ¬e.Handles className method := by
  simp only [resolve, Option.map_eq_none_iff, List.find?_eq_none, handles_iff]

/-- A call has one type for every spelling of the class. -/
theorem resolve_congr {other : Text} (h : Respelled className other) :
    r.resolve other method c scope = r.resolve className method c scope := by
  rw [resolve, resolve, handles_congr h]

/-! ## Registering more -/

/-- What is registered one by one stands behind what was there, in that order. -/
theorem extensions_foldl_register (more : List Extension) :
    (more.foldl register r).extensions = r.extensions ++ more := by
  induction more generalizing r with
  | nil => simp
  | cons e more ih =>
    rw [List.foldl_cons, ih]
    simp [register]

/-- What is registered later does not change an answer. -/
theorem resolve_foldl_register (h : r.resolve className method c scope = some type)
    (more : List Extension) :
    (more.foldl register r).resolve className method c scope = some type := by
  obtain ⟨e, hdecides, htype⟩ := resolve_eq_some_iff.1 h
  obtain ⟨before, after, hes, hbefore⟩ := hdecides.first
  refine resolve_eq_some_iff.2 ⟨e, ⟨hdecides.handles, before, after ++ more, ?_, hbefore⟩, htype⟩
  rw [extensions_foldl_register, hes]
  simp

/-- The registry answers by the first extension of a list that handles a call, in any spelling of the
class, and it goes on doing so when more is registered. -/
structure AnswersFirst (r : Registry) (es : List Extension) : Prop where
  eq_some_iff (className method : Text) (c : MethodCall) (scope : Scope) (type : InferredType) :
    r.resolve className method c scope = some type ↔
      ∃ e, Decides es className method e ∧ e.typeOf method c scope = type
  eq_none_iff (className method : Text) (c : MethodCall) (scope : Scope) :
    r.resolve className method c scope = none ↔ ∀ e ∈ es, ¬e.Handles className method
  respelled (className other method : Text) (c : MethodCall) (scope : Scope) :
    Respelled className other →
      r.resolve other method c scope = r.resolve className method c scope
  keeps (className method : Text) (c : MethodCall) (scope : Scope) (type : InferredType)
      (further : List Extension) :
    r.resolve className method c scope = some type →
      (further.foldl register r).resolve className method c scope = some type

/-- Every registry answers by the first of its extensions that handles a call. -/
theorem answersFirst (r : Registry) : r.AnswersFirst r.extensions where
  eq_some_iff _ _ _ _ _ := resolve_eq_some_iff
  eq_none_iff _ _ _ _ := resolve_eq_none_iff
  respelled _ _ _ _ _ h := resolve_congr h
  keeps _ _ _ _ _ further h := resolve_foldl_register h further

end Registry

/-! ## Lists of factory methods -/

namespace FactoryMethods

variable {f : FactoryMethods} {fs : List FactoryMethods} {i : Nat} {error : RegistryError}

/-- An entry that says a class and methods. -/
structure IsComplete (f : FactoryMethods) : Prop where
  className : ¬Directive.IsSpace f.className
  methods : f.methods ≠ []

/-- What is wrong with an entry at an index: its class is asked for first. -/
inductive Lacks (f : FactoryMethods) (i : Nat) : RegistryError → Prop
  | noClass (h : Directive.IsSpace f.className) : Lacks f i (.noClass i)
  | noMethods (hclass : ¬Directive.IsSpace f.className) (h : f.methods = []) :
      Lacks f i (.noMethods i f.className)

/-- Trimming leaves nothing of a text exactly if it is all white space. -/
theorem isEmpty_trim_iff {t : Text} : (Text.trim t).isEmpty = true ↔ Directive.IsSpace t := by
  rw [List.isEmpty_iff]
  constructor
  · intro h
    obtain ⟨front, back, htext, hfront, hback⟩ := Directive.space_of_mem_trim t
    rw [h, List.append_nil] at htext
    intro c hc
    rw [htext] at hc
    exact (List.mem_append.1 hc).elim (hfront c) (hback c)
  · intro h
    have htrim : Text.trim (t ++ [] ++ []) = Text.trim [] :=
      Text.trim_append_of_all h (List.forall_mem_nil _) []
    rw [List.append_nil, List.append_nil] at htrim
    rw [htrim]
    rfl

/-- The error about an entry says what the entry lacks. -/
theorem error?_eq_some_iff : f.error? i = some error ↔ f.Lacks i error := by
  rw [error?]
  split
  · next hblank =>
    have hblank := isEmpty_trim_iff.1 hblank
    rw [Option.some.injEq]
    constructor
    · rintro rfl
      exact .noClass hblank
    · intro h
      cases h with
      | noClass _ => rfl
      | noMethods hclass _ => exact absurd hblank hclass
  · next hclass =>
    have hclass := mt isEmpty_trim_iff.2 hclass
    split
    · next hmethods =>
      rw [Option.some.injEq]
      constructor
      · rintro rfl
        exact .noMethods hclass (List.isEmpty_iff.1 hmethods)
      · intro h
        cases h with
        | noClass hblank => exact absurd hblank hclass
        | noMethods _ _ => rfl
    · next hmethods =>
      constructor
      · intro h
        cases h
      · intro h
        cases h with
        | noClass hblank => exact absurd hblank hclass
        | noMethods _ hnone => exact absurd (List.isEmpty_iff.2 hnone) hmethods

/-- An entry has no error exactly if it is complete. -/
theorem error?_eq_none_iff : f.error? i = none ↔ f.IsComplete := by
  constructor
  · intro h
    have hnone (error : RegistryError) : ¬f.Lacks i error := by
      intro hlacks
      rw [← error?_eq_some_iff, h] at hlacks
      cases hlacks
    have hclass : ¬Directive.IsSpace f.className := fun hblank => hnone _ (.noClass hblank)
    exact ⟨hclass, fun hmethods => hnone _ (.noMethods hclass hmethods)⟩
  · intro h
    cases herror : f.error? i with
    | none => rfl
    | some error =>
      cases error?_eq_some_iff.1 herror with
      | noClass hblank => exact absurd hblank h.className
      | noMethods _ hmethods => exact absurd hmethods h.methods

/-- The error is about the first entry that is not complete. -/
def FirstLacks (fs : List FactoryMethods) (error : RegistryError) : Prop :=
  ∃ front f back, fs = front ++ f :: back ∧ (∀ g ∈ front, g.IsComplete) ∧
    f.Lacks front.length error

/-- What holds of the entries with their indices holds of the entries. -/
theorem forall_zipIdx_iff {p : FactoryMethods → Prop} {start : Nat} :
    (∀ x ∈ fs.zipIdx start, p x.1) ↔ ∀ f ∈ fs, p f := by
  conv_rhs => rw [← List.zipIdx_map_fst start fs, List.forall_mem_map]

/-- The first error of a list is about the first entry that is not complete, and says its index. -/
theorem findSome?_error?_eq_some_iff :
    (fs.zipIdx.findSome? fun (f, index) => f.error? index) = some error ↔ FirstLacks fs error := by
  simp only [List.findSome?_eq_some_iff, error?_eq_some_iff, error?_eq_none_iff]
  constructor
  · rintro ⟨before, ⟨f, index⟩, after, hzip, hlacks, hbefore⟩
    obtain ⟨front, rest, rfl, rfl, hrest⟩ := List.zipIdx_eq_append_iff.1 hzip
    obtain ⟨f', back, rfl, hpair, -⟩ := List.zipIdx_eq_cons_iff.1 hrest.symm
    obtain ⟨rfl, rfl⟩ := Prod.mk.inj hpair
    rw [Nat.zero_add] at hlacks
    exact ⟨front, f, back, rfl, forall_zipIdx_iff.1 hbefore, hlacks⟩
  · rintro ⟨front, f, back, rfl, hfront, hlacks⟩
    refine ⟨front.zipIdx, (f, front.length), back.zipIdx (front.length + 1), ?_, hlacks, ?_⟩
    · rw [List.zipIdx_append, List.zipIdx_cons, Nat.zero_add]
    · exact forall_zipIdx_iff.2 hfront

/-- A list has no error exactly if all entries are complete. -/
theorem findSome?_error?_eq_none_iff :
    (fs.zipIdx.findSome? fun (f, index) => f.error? index) = none ↔ ∀ f ∈ fs, f.IsComplete := by
  simp only [List.findSome?_eq_none_iff, error?_eq_none_iff]
  exact forall_zipIdx_iff

end FactoryMethods

namespace Registry

variable {fs : List FactoryMethods} {r : Registry} {error : RegistryError} {t : Text}

/-- A list that has an error gives no registry, but that error. -/
theorem ofFactories_eq_error_iff :
    ofFactories fs = .error error ↔ FactoryMethods.FirstLacks fs error := by
  rw [← FactoryMethods.findSome?_error?_eq_some_iff, ofFactories]
  split
  · next found hfound => rw [hfound, Except.error.injEq, Option.some.injEq]
  · next hnone => simp [hnone]

/-- A list of complete entries gives the registry of these entries in their order, and no other list
gives one. -/
theorem ofFactories_eq_ok_iff :
    ofFactories fs = .ok r ↔
      (∀ f ∈ fs, f.IsComplete) ∧ r = ⟨fs.map FactoryMethods.toExtension⟩ := by
  rw [← FactoryMethods.findSome?_error?_eq_none_iff, ofFactories]
  split
  · next found hfound => simp [hfound]
  · next hnone => simp [hnone, eq_comm]

/-- A document gives what its list of entries gives. -/
theorem ofText_of_factories (h : factoriesOfText? t = some fs) : ofText t = ofFactories fs := by
  rw [ofText, h]

/-- **The first extension that fits answers a call.**  A document that lists factory methods has a registry
if every entry says a class and methods, and else an error with the index of the first that does not.
Whatever is registered behind the entries, each call is answered by the first of them all that handles it,
in any spelling of the class, and registering more does not change an answer. -/
theorem answersFirst_ofText (h : factoriesOfText? t = some fs) :
    (∀ error, ofText t = .error error ↔ FactoryMethods.FirstLacks fs error) ∧
    ((∃ r, ofText t = .ok r) ↔ ∀ f ∈ fs, f.IsComplete) ∧
    (∀ f ∈ fs, ∀ className method, f.toExtension.Handles className method ↔
      Respelled f.className className ∧ method ∈ f.methods) ∧
    ∀ r, ofText t = .ok r → ∀ more : List Extension,
      (more.foldl register r).AnswersFirst (fs.map FactoryMethods.toExtension ++ more) := by
  rw [ofText_of_factories h]
  refine ⟨fun error => ofFactories_eq_error_iff, ?_, fun f _ className method => f.handles_iff, ?_⟩
  · simp only [ofFactories_eq_ok_iff, exists_and_left, exists_eq, and_true]
  · intro r hr more
    obtain ⟨-, rfl⟩ := ofFactories_eq_ok_iff.1 hr
    have hanswers := answersFirst (more.foldl register ⟨fs.map FactoryMethods.toExtension⟩)
    rwa [extensions_foldl_register] at hanswers

/-- Two entries for one class in two spellings, and one more that is registered behind them: the method
is not among those of the first, and the third is not asked. -/
theorem answersFirst_ofText_overlapping :
    ∃ r, ofText ("[[factory_methods]]\nclass = 'App\\F'\nmethods = ['make']\nargument = 1\n" ++
        "[[factory_methods]]\nclass = '\\app\\f'\nmethods = ['make', 'get']\n").toList = .ok r ∧
      (r.register (FactoryMethods.toExtension ⟨"App\\F".toList, ["get".toList], 1⟩)).resolve
          "\\APP\\F".toList "get".toList ⟨.variableName [], [], [.string ['A'], .string ['B']]⟩
          literalScope = some (.object ['A']) := by
  let first : FactoryMethods := ⟨"App\\F".toList, ["make".toList], 1⟩
  let second : FactoryMethods := ⟨"\\app\\f".toList, ["make".toList, "get".toList], 0⟩
  let third : FactoryMethods := ⟨"App\\F".toList, ["get".toList], 1⟩
  have hread : factoriesOfText?
      ("[[factory_methods]]\nclass = 'App\\F'\nmethods = ['make']\nargument = 1\n" ++
        "[[factory_methods]]\nclass = '\\app\\f'\nmethods = ['make', 'get']\n").toList =
      some [first, second] := by decide +kernel
  obtain ⟨-, hok, -, hanswers⟩ := answersFirst_ofText hread
  have hcomplete : ∀ f ∈ [first, second], f.IsComplete :=
    List.forall_mem_cons.2 ⟨⟨by decide, by decide⟩,
      List.forall_mem_singleton.2 ⟨by decide, by decide⟩⟩
  obtain ⟨r, hr⟩ := hok.2 hcomplete
  have hclass : Respelled second.className "\\APP\\F".toList :=
    ⟨1, 1, "app\\f".toList, "APP\\F".toList, rfl, rfl, by decide⟩
  have hbefore : ∀ b ∈ [first.toExtension], ¬b.Handles "\\APP\\F".toList "get".toList := by
    refine List.forall_mem_singleton.2 fun h => ?_
    exact absurd h.method (by decide)
  have hdecides : Decides ([first, second].map FactoryMethods.toExtension ++ [third.toExtension])
      "\\APP\\F".toList "get".toList second.toExtension :=
    ⟨⟨hclass, by decide⟩, [first.toExtension], [third.toExtension], rfl, hbefore⟩
  have hfirst := hanswers r hr [third.toExtension]
  exact ⟨r, hr, (hfirst.eq_some_iff _ _ _ _ _).2 ⟨second.toExtension, hdecides, rfl⟩⟩

end Registry

end PhpLint

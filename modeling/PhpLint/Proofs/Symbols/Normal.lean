import PhpLint.Proofs.Lexing.Search
import PhpLint.Proofs.Symbols.Enclosing
import PhpLint.Proofs.Symbols.Written

/-!
# The names that the table holds

A look-up takes the separators off the name that it is given, and so does the question whether a
name is among the ancestors of a type; the names that they are compared with are taken as the table
holds them.  Both answer rightly when the table holds normal names alone.

It does for files that write their names tidily (`normalised_ofStreams`).  The scope of such a file
gives every reference a normal name (`isNormal_qualify`), and all names of a declaration are
references that the scope has been asked for (`isNormal_of_read?`).  The one sort of import that is
not tidy is a group whose prefix starts with a separator: the prefix is put in front of its names as
it is written.
-/

namespace PhpLint

open TokenStream (HasWords)

variable {s : TokenStream} {name : Text} {i : Nat}

/-! ## What a tidy file writes -/

/-- The cursors of the import statements of a file. -/
def NameScope.importCursors (s : TokenStream) : List UseCursor :=
  ((List.range s.size).filter (startsImport s (typeBodies s))).flatMap (Import.cursors s)

/-- The names of a file are written as names: no more than one separator stands in front, and none
in front of the prefix of a group. -/
structure TokenStream.TidyNames (s : TokenStream) : Prop where
  group : ∀ c ∈ NameScope.importCursors s, Import.startsGroup s c.index = true →
    s.isAt c.index .backslash = false
  /-- A separator stands right behind an identifier or right before one. -/
  separator : ∀ i, s.isAt i .backslash = true → s.isAt (i - 1) .identifier = false →
    s.isAt (i + 1) .identifier = true

/-- Whether names are tidy is decided by the separators of a file. -/
theorem TokenStream.tidyNames_iff :
    s.TidyNames ↔
      (∀ c ∈ NameScope.importCursors s, Import.startsGroup s c.index = true →
        s.isAt c.index .backslash = false) ∧
      ∀ i ∈ List.range s.size, s.isAt i .backslash = true → s.isAt (i - 1) .identifier = false →
        s.isAt (i + 1) .identifier = true := by
  constructor
  · intro h
    exact ⟨h.group, fun i _ => h.separator i⟩
  · intro ⟨hgroup, hseparator⟩
    refine ⟨hgroup, fun i hi => hseparator i ?_ hi⟩
    rw [List.mem_range]
    exact lt_size_of_has (has_of_isAt hi fun _ => true)

instance (s : TokenStream) : Decidable s.TidyNames :=
  decidable_of_iff _ TokenStream.tidyNames_iff.symm

/-! ## What names mean -/

namespace NameScope

variable {scope : NameScope}

/-- The namespaces and the imports of a scope have normal names, if a namespace has a name. -/
structure Normal (scope : NameScope) : Prop where
  marks : ∀ mark ∈ scope.marks, mark.name = [] ∨ IsNormal mark.name
  imports : ∀ im ∈ scope.imports, IsNormal im.target

/-- A namespace has a normal name, or none. -/
theorem isNormal_of_mark? (hwords : HasWords s) {mark : NamespaceMark} (h : mark? s i = some mark) :
    mark.name = [] ∨ IsNormal mark.name := by
  unfold mark? at h
  split at h
  · obtain ⟨start, -, h⟩ := Option.bind_eq_some_iff.1 h
    split at h
    · cases h
    · next hslash =>
      obtain rfl := Option.some.inj h
      dsimp only
      cases hname : s.readName? start with
      | none => exact .inl rfl
      | some read =>
        have hslash := eq_false_of_ne_true hslash
        exact .inr (TokenStream.isNormal_of_readName? hwords hslash hname)
  · cases h

/-- What a tidy file imports has a normal name. -/
theorem isNormal_of_ofUse (hwords : HasWords s) (htidy : s.TidyNames)
    (hi : i ∈ (List.range s.size).filter (startsImport s (typeBodies s))) {im : Import}
    (h : im ∈ Import.ofUse s i) : IsNormal im.target := by
  obtain ⟨c, hc, hstep⟩ := Import.exists_cursor_of_mem h
  have hgroup : ∀ c' ∈ Import.cursors s i, Import.startsGroup s c'.index = true →
      s.isAt c'.index .backslash = false := fun c' hc' =>
    htidy.group c' (List.mem_flatMap.2 ⟨i, hi, hc'⟩)
  have huse : s.isAt i (.keyword .kwUse) = true := by
    have hstart := (List.mem_filter.1 hi).2
    simp only [startsImport, Bool.and_eq_true] at hstart
    exact hstart.1.1
  have hsound : Import.Sound s c := by
    unfold Import.cursors at hc hgroup
    cases hfirst : s.nextSignificant i with
    | none => simp [hfirst] at hc
    | some first =>
      simp only [hfirst] at hc hgroup
      split at hc
      · cases hc
      · next hforeign =>
        simp only [if_neg hforeign] at hgroup
        have hstart := TokenStream.not_identifier_behind huse (by decide) hfirst
        exact Import.sound_of_mem hwords hgroup ⟨hstart, .inl rfl⟩ c hc
  exact Import.isNormal_target hwords hsound
    (fun hslash => htidy.separator c.index hslash hsound.start) hstep

/-- The scope of a tidy file is normal. -/
theorem normal_ofStream (hwords : HasWords s) (htidy : s.TidyNames) : (ofStream s).Normal := by
  constructor
  case marks =>
    intro mark hmark
    obtain ⟨i, -, hi⟩ := List.mem_filterMap.1 hmark
    exact isNormal_of_mark? hwords hi
  case imports =>
    intro im him
    obtain ⟨i, hi, him⟩ := List.mem_flatMap.1 him
    exact isNormal_of_ofUse hwords htidy hi him

/-- A reference stands for a normal name. -/
theorem isNormal_qualify (hscope : scope.Normal) (hname : IsReference name) (i : Nat) :
    IsNormal (scope.qualify name i) := by
  unfold qualify
  split
  · next absolute habsolute =>
    obtain rfl : name = '\\' :: absolute := Text.stripStart_eq_some_iff.1 habsolute
    rcases hname with hname | ⟨rest, heq, hrest⟩
    · exact absurd rfl (isNormal_cons.1 hname)
    · rwa [(List.cons.inj heq).2]
  · next hrelative =>
    have hnormal : IsNormal name := by
      refine hname.resolve_right ?_
      rintro ⟨rest, rfl, -⟩
      cases hrelative
    have hmark : ((scope.markAt? i).getD ⟨0, []⟩).name = [] ∨
        IsNormal ((scope.markAt? i).getD ⟨0, []⟩).name := by
      cases hfound : scope.markAt? i with
      | none => exact .inl rfl
      | some mark =>
        have hmem := List.mem_of_find?_eq_some hfound
        exact hscope.marks mark (List.mem_reverse.1 hmem)
    dsimp only
    split
    · next him _ => exact (hscope.imports _ (List.mem_of_find?_eq_some him)).qualifyWith _
    · next him _ => exact hscope.imports _ (List.mem_of_find?_eq_some him)
    · split
      · exact hnormal
      · next hnonempty =>
        refine (hmark.resolve_left fun hnil => hnonempty ?_).qualifyWith name
        rw [hnil]
        rfl

/-- No more than one separator is taken off. -/
example : (NameScope.mk [] []).qualify "\\\\A".toList 0 = "\\A".toList := by decide

end NameScope

/-! ## Declarations -/

/-- All names that a declaration holds, those of its methods apart. -/
def TypeSymbol.heldNames (symbol : TypeSymbol) : List Text :=
  symbol.name :: (symbol.supertypes ++ symbol.traits)

namespace Declaration

variable {scope : NameScope} {k : Nat}

theorem isNormal_of_declaredName? (hwords : HasWords s) (h : s.declaredName? i = some name) :
    IsNormal name := by
  obtain ⟨k, hidentifier, rfl⟩ := TokenStream.exists_of_declaredName? h
  exact hwords k hidentifier

/-- The names of a list are references: each is read behind the keyword or a comma. -/
theorem isReference_of_mem_namesFrom (hwords : HasWords s) (htidy : s.TidyNames) {start : Nat}
    (hstart : s.isAt (start - 1) .identifier = false) :
    ∀ name ∈ namesFrom s start, IsReference name := by
  have hreference {start after : Nat} {name : Text}
      (hstart : s.isAt (start - 1) .identifier = false)
      (hname : s.readName? start = some (name, after)) : IsReference name :=
    TokenStream.isReference_of_readName? hwords (fun h => htidy.separator start h hstart) hname
  fun_induction namesFrom s start with
  | case1 => exact fun name hmem => absurd hmem List.not_mem_nil
  | case2 start name after hname hlast =>
    intro other hmem
    rw [List.mem_singleton.1 hmem]
    exact hreference hstart hname
  | case3 start name after hname next hnext ih =>
    intro other hmem
    rcases List.mem_cons.1 hmem with rfl | hmem
    · exact hreference hstart hname
    · refine ih ?_ other hmem
      simp only [nextInList?, Option.bind_eq_bind, Option.bind_eq_some_iff] at hnext
      obtain ⟨separator, -, hnext⟩ := hnext
      split at hnext
      · next hcomma =>
        exact TokenStream.not_identifier_behind hcomma (by decide) hnext
      · cases hnext

section Tidy

variable (hwords : HasWords s) (htidy : s.TidyNames) (hscope : scope.Normal)

include hwords htidy hscope

/-- The names behind a keyword have normal meanings. -/
theorem isNormal_of_mem_namesAfter (hk : s.isAt k .identifier = false) :
    ∀ name ∈ namesAfter s scope k, IsNormal name := by
  intro name hmem
  unfold namesAfter at hmem
  split at hmem
  · next start hstart =>
    obtain ⟨written, hwritten, rfl⟩ := List.mem_map.1 hmem
    have hstart := TokenStream.not_identifier_of_nextSignificant hk hstart
    exact NameScope.isNormal_qualify hscope
      (isReference_of_mem_namesFrom hwords htidy hstart written hwritten) k
  · cases hmem

/-- The names in a header have normal meanings. -/
theorem isNormal_of_mem_listedIn {p : Kind → Bool} (hp : p .identifier = false) {start stop : Nat} :
    ∀ name ∈ listedIn s scope p start stop, IsNormal name := by
  intro name hmem
  unfold listedIn at hmem
  split at hmem
  · next keyword hfound =>
    have hkeyword : s.has keyword p = true := List.find?_some (p := (s.has · p)) hfound
    refine isNormal_of_mem_namesAfter hwords htidy hscope ?_ name hmem
    by_contra hat
    rw [TokenStream.has_of_isAt (eq_true_of_ne_false hat), hp] at hkeyword
    cases hkeyword
  · cases hmem

/-- The traits that a member of a body uses have normal names. -/
theorem isNormal_of_mem_memberAt : ∀ name ∈ (memberAt s scope i).traitNames, IsNormal name := by
  intro name hmem
  unfold memberAt at hmem
  split at hmem
  · split at hmem <;> cases hmem
  · split at hmem
    · next huse =>
      have hk := TokenStream.not_identifier_of_isAt huse (by decide)
      exact isNormal_of_mem_namesAfter hwords htidy hscope hk name hmem
    · cases hmem

/-- The traits of the members have normal names. -/
theorem isNormal_of_mem_membersFrom {closer : Nat} :
    ∀ member ∈ membersFrom s scope closer i, ∀ name ∈ member.traitNames, IsNormal name := by
  fun_induction membersFrom s scope closer i with
  | case1 i hi ih =>
    intro member hmem
    rcases List.mem_cons.1 hmem with rfl | hmem
    · exact isNormal_of_mem_memberAt hwords htidy hscope
    · exact ih member hmem
  | case2 => exact fun member hmem => absurd hmem List.not_mem_nil

/-- All names of a declaration are normal. -/
theorem isNormal_of_read? {symbol : TypeSymbol} (h : read? s scope i = some symbol) :
    ∀ name ∈ symbol.heldNames, IsNormal name := by
  simp only [read?, Option.bind_eq_bind, Option.bind_eq_some_iff] at h
  obtain ⟨sort, -, shortName, hname, ⟨opener, closer⟩, -, h⟩ := h
  obtain rfl := Option.some.inj h
  have hlisted {p : Kind → Bool} (hp : p .identifier = false) :
      ∀ name ∈ listedIn s scope p i opener, IsNormal name :=
    isNormal_of_mem_listedIn hwords htidy hscope hp
  intro name hmem
  simp only [TypeSymbol.heldNames, TypeSymbol.supertypes, List.mem_cons, List.mem_append] at hmem
  rcases hmem with rfl | (hparent | hinterface) | htrait
  · exact NameScope.isNormal_qualify hscope (.inl (isNormal_of_declaredName? hwords hname)) i
  · split at hparent
    · cases hparent
    · exact hlisted rfl name hparent
  · exact hlisted (Bool.and_false _) name hinterface
  · obtain ⟨member, hmember, hname⟩ := List.mem_flatMap.1 htrait
    exact isNormal_of_mem_membersFrom hwords htidy hscope member hmember name hname

end Tidy

/-- All names in the declarations of a tidy file are normal. -/
theorem isNormal_of_mem_ofStream (hwords : HasWords s) (htidy : s.TidyNames) :
    ∀ symbol ∈ ofStream s, ∀ name ∈ symbol.heldNames, IsNormal name := by
  intro symbol hsymbol
  obtain ⟨i, -, hread⟩ := List.mem_filterMap.1 hsymbol
  exact isNormal_of_read? hwords htidy (NameScope.normal_ofStream hwords htidy) hread

end Declaration

/-! ## The table -/

namespace SymbolTable

/-- What a table of normal names can be relied on for. -/
structure Normalised (t : SymbolTable) : Prop where
  held : ∀ symbol ∈ t.symbols, ∀ name ∈ symbol.heldNames, IsNormal name
  /-- A declaration that no later one replaces is in force for its name, however that is written. -/
  found : ∀ before symbol after, t.symbols = before ++ symbol :: after →
    (∀ other ∈ after, Text.sameLetters other.name symbol.name = false) →
    ∀ name, SameName name symbol.name → t.get? name = some symbol
  /-- What a type leads to is among its ancestors, however its name is written. -/
  listed : ∀ c k ancestor, t.Leads c k ancestor →
    ∀ name, SameName name ancestor → (t.ancestors c).has name = true

variable {t : SymbolTable}

/-- Where declarations hold normal names they lead to normal names. -/
theorem isNormal_of_leads (hheld : ∀ symbol ∈ t.symbols, ∀ name ∈ symbol.heldNames, IsNormal name)
    {c : Text} {k : Nat} (h : t.Leads c k name) : IsNormal name := by
  obtain ⟨symbol, hsymbol, hname⟩ := List.mem_flatMap.1 h.mem_allSupertypes
  refine hheld symbol hsymbol name ?_
  exact List.mem_cons_of_mem _ (List.mem_append_left _ hname)

/-- A table that holds normal names alone can be relied on. -/
theorem normalised_of_held
    (hheld : ∀ symbol ∈ t.symbols, ∀ name ∈ symbol.heldNames, IsNormal name) : t.Normalised := by
  have hstrip {m n : Text} (hn : IsNormal n) (h : SameName m n) :
      Text.sameLetters n (stripLeading m) = true := by
    unfold SameName at h
    rw [hn.stripLeading_eq] at h
    exact Text.sameLetters_symm h
  constructor
  case held => exact hheld
  case found =>
    intro before symbol after hsymbols hafter name hname
    have hmem : symbol ∈ t.symbols := by simp [hsymbols]
    have hsame := hstrip (hheld symbol hmem symbol.name List.mem_cons_self) hname
    -- The search starts with the last declaration, and none behind this one has its name.
    have hlater : after.reverse.find? (Text.sameLetters ·.name (stripLeading name)) = none := by
      refine List.find?_eq_none.2 fun other hother hsame' => ?_
      have hne := hafter other (List.mem_reverse.1 hother)
      rw [Text.sameLetters_trans hsame' (Text.sameLetters_symm hsame)] at hne
      cases hne
    unfold get?
    rw [hsymbols, List.reverse_append, List.reverse_cons, List.append_assoc, List.find?_append,
      hlater, Option.none_or, List.singleton_append]
    exact List.find?_cons_of_pos hsame
  case listed =>
    intro c k ancestor hleads name hname
    obtain ⟨other, hother, hspelling⟩ := hleads.lists_ancestors
    have hsame := hstrip (isNormal_of_leads hheld hleads) hname
    exact List.any_eq_true.2 ⟨other, hother, Text.sameLetters_trans hspelling hsame⟩

/-- **Normal names.**  In the table of files that write their names tidily every name is normal, so
declarations are found and ancestors known by every spelling of their names. -/
theorem normalised_ofStreams {streams : List TokenStream}
    (h : ∀ s ∈ streams, (∃ source, TokenStream.ofSource source = .ok s) ∧ s.TidyNames) :
    (ofStreams streams).Normalised := by
  apply normalised_of_held
  intro symbol hsymbol
  rw [symbols_ofStreams] at hsymbol
  obtain ⟨s, hs, hsymbol⟩ := List.mem_flatMap.1 hsymbol
  obtain ⟨⟨source, hsource⟩, htidy⟩ := h s hs
  exact Declaration.isNormal_of_mem_ofStream (TokenStream.hasWords_of_ofSource hsource) htidy symbol
    hsymbol

/-- Two files with a namespace, a group of imports, an alias and separators in front. -/
theorem normalised_ofStreams_imports :
    ∃ s s', TokenStream.ofSource ("<?php\nnamespace App;\nuse Lib\\\x7bBase as B, I\x7d;\n" ++
        "use \\Core\\Util;\nclass C extends B implements I, \\J \x7b use Util; \x7d").toList =
          .ok s ∧
      TokenStream.ofSource "<?php\nnamespace Lib;\nclass Base \x7b\x7d".toList = .ok s' ∧
      (ofStreams [s, s']).symbols.map TypeSymbol.heldNames =
        [["App\\C".toList, "Lib\\Base".toList, "Lib\\I".toList, "J".toList,
          "Core\\Util".toList], ["Lib\\Base".toList]] ∧
      (ofStreams [s, s']).Normalised := by
  have hfirst : (TokenStream.ofSource
      ("<?php\nnamespace App;\nuse Lib\\\x7bBase as B, I\x7d;\n" ++
        "use \\Core\\Util;\nclass C extends B implements I, \\J \x7b use Util; \x7d").toList).map
      (fun s => (decide s.TidyNames, (Declaration.ofStream s).map TypeSymbol.heldNames)) =
        .ok (true, [["App\\C".toList, "Lib\\Base".toList, "Lib\\I".toList, "J".toList,
          "Core\\Util".toList]]) := by
    decide +kernel
  have hsecond : (TokenStream.ofSource "<?php\nnamespace Lib;\nclass Base \x7b\x7d".toList).map
      (fun s => (decide s.TidyNames, (Declaration.ofStream s).map TypeSymbol.heldNames)) =
        .ok (true, [["Lib\\Base".toList]]) := by
    decide +kernel
  obtain ⟨s, hs, hnames⟩ := TokenStream.exists_of_map_ofSource hfirst
  obtain ⟨s', hs', hnames'⟩ := TokenStream.exists_of_map_ofSource hsecond
  obtain ⟨htidy, hnames⟩ := Prod.mk.inj hnames
  obtain ⟨htidy', hnames'⟩ := Prod.mk.inj hnames'
  refine ⟨s, s', hs, hs', ?_, normalised_ofStreams ?_⟩
  · rw [symbols_ofStreams]
    simp only [List.flatMap_cons, List.flatMap_nil, List.append_nil, List.map_append, hnames,
      hnames', List.singleton_append]
  · intro stream hstream
    rcases List.mem_pair.1 hstream with rfl | rfl
    · exact ⟨⟨_, hs⟩, of_decide_eq_true htidy⟩
    · exact ⟨⟨_, hs'⟩, of_decide_eq_true htidy'⟩

/-- The prefix of a group is put in front of its names with its separator, and then the ancestor is
known by no spelling of its name. -/
theorem ancestors_of_separated_group :
    ∃ s, TokenStream.ofSource
        "<?php\nuse \\App\\\x7bBase\x7d;\nclass C extends Base \x7b\x7d".toList = .ok s ∧
      (ofStreams [s]).symbols.map TypeSymbol.parents = [["\\App\\Base".toList]] ∧
      ((ofStreams [s]).ancestors ['C']).has "App\\Base".toList = false ∧
      ((ofStreams [s]).ancestors ['C']).has "\\App\\Base".toList = false := by
  have hcomputed : (TokenStream.ofSource
      "<?php\nuse \\App\\\x7bBase\x7d;\nclass C extends Base \x7b\x7d".toList).map
      (fun s => decide ((ofStreams [s]).symbols.map TypeSymbol.parents = [["\\App\\Base".toList]] ∧
        ((ofStreams [s]).ancestors ['C']).has "App\\Base".toList = false ∧
        ((ofStreams [s]).ancestors ['C']).has "\\App\\Base".toList = false)) = .ok true := by
    decide +kernel
  obtain ⟨s, hs, hcomputed⟩ := TokenStream.exists_of_map_ofSource hcomputed
  exact ⟨s, hs, of_decide_eq_true hcomputed⟩

end SymbolTable

end PhpLint

import PhpLint.Proofs.Layout.Scope
import PhpLint.Proofs.Symbols.Normal

/-!
# What names mean in streams of one code

A qualified name is several tokens that stand side by side, so layout inside of it would make another name
of it.  Where the names of two streams of one code are read alike (`SameNames`), their namespace statements
and imports say the same, and so a name has the same meaning at tokens that match (`qualify_matches`).
-/

namespace PhpLint

open TokenStream (Matches Level Told MatchBodies)

variable {s s' : TokenStream} {i i' : Nat}

/-- Names are read alike at tokens that match: they are the same and end at equal levels.  In an import
statement a brace stands behind the one as behind the other. -/
structure TokenStream.SameNames (s s' : TokenStream) : Prop where
  name : ∀ i i', Matches s s' i i' →
    Option.Rel (fun r r' => r'.1 = r.1 ∧ Level s s' r.2 r'.2) (s.readName? i) (s'.readName? i')
  group : ∀ c ∈ NameScope.importCursors s, ∀ i', Matches s s' c.index i' →
    Import.startsGroup s' i' = Import.startsGroup s c.index

/-- The names at two indices are read alike. -/
def TokenStream.readsAlike (s s' : TokenStream) (i i' : Nat) : Bool :=
  (match s.readName? i, s'.readName? i' with
    | none, none => true
    | some r, some r' => r'.1 == r.1 && s'.ordinal r'.2 == s.ordinal r.2
    | _, _ => false) && Import.startsGroup s' i' == Import.startsGroup s i

/-- Tokens that match are those with one place in the code. -/
theorem TokenStream.Matches.mem_zip (h : Matches s s' i i') :
    (i, i') ∈ s.codeIndices.zip s'.codeIndices := by
  have hplace {s : TokenStream} {i : Nat} (hi : s.has i Kind.isSignificant = true) :
      s.codeIndices[s.ordinal i]? = some i := by
    have hsize := lt_size_of_has hi
    have hindex : (List.range s.size)[i]? = some i := List.getElem?_range hsize
    have hbefore := congrArg List.length (map_ordinal_filter_range s i)
    rw [List.length_map, List.length_range] at hbefore
    have hfound := getElem?_filter_of_getElem? (p := (s.has · Kind.isSignificant)) hindex hi
    rwa [List.take_range, Nat.min_eq_left (Nat.le_of_lt hsize), hbefore] at hfound
  have hleft := hplace h.left
  have hright := hplace h.right
  rw [h.ordinal] at hright
  exact List.mem_of_getElem? (List.getElem?_zip_eq_some.2 ⟨hleft, hright⟩)

/-- Going through the code once tells that names are read alike. -/
theorem TokenStream.sameNames_of_zip
    (h : (s.codeIndices.zip s'.codeIndices).all (fun p => readsAlike s s' p.1 p.2) = true) :
    s.SameNames s' := by
  have hat {i i' : Nat} (hi : Matches s s' i i') := List.all_eq_true.1 h _ hi.mem_zip
  constructor
  case name =>
    intro i i' hi
    have hnames := ((Bool.and_eq_true _ _).mp (hat hi)).1
    cases hread : s.readName? i with
    | none =>
      cases hread' : s'.readName? i' with
      | none => exact .none
      | some r' => simp [hread, hread'] at hnames
    | some r =>
      cases hread' : s'.readName? i' with
      | none => simp [hread, hread'] at hnames
      | some r' => exact .some (by simpa [hread, hread', Level] using hnames)
  case group =>
    intro c _ i' hi
    exact beq_iff_eq.1 ((Bool.and_eq_true _ _).mp (hat hi)).2

/-! ## Import statements -/

/-- Imports of one name by keywords that match. -/
structure Import.Same (s s' : TokenStream) (im im' : Import) : Prop where
  index : Matches s s' im.index im'.index
  shortName : im'.shortName = im.shortName
  target : im'.target = im.target

/-- Cursors at tokens that match, in one group. -/
structure UseCursor.Same (s s' : TokenStream) (c c' : UseCursor) : Prop where
  index : Matches s s' c.index c'.index
  group : c'.group = c.group

namespace Import

section SameCode

variable (hcode : s'.code = s.code)
include hcode

/-- Behind equal levels the cursor finds names that match, or none. -/
theorem cursorAfter?_level (group : Text) {after after' : Nat} (h : Level s s' after after') :
    Option.Rel (UseCursor.Same s s') (cursorAfter? s group after) (cursorAfter? s' group after') := by
  have hbehind {k k' : Nat} (group : Text) (hk : Matches s s' k k') :
      Option.Rel (UseCursor.Same s s')
        ((s.nextSignificant k).bind fun j => some ⟨j, group⟩)
        ((s'.nextSignificant k').bind fun j => some ⟨j, group⟩) :=
    Option.rel_bind (hk.nextSignificant hcode) fun _ _ hj => .some ⟨hj, rfl⟩
  refine Option.rel_bind (h.findNext hcode fun _ hk => hk) fun separator separator' hseparator => ?_
  rw [hseparator.isAt hcode, hseparator.isAt hcode]
  split
  · exact hbehind group hseparator
  · split
    · refine Option.rel_bind (hseparator.nextSignificant hcode) fun comma comma' hcomma => ?_
      rw [hcomma.isAt hcode]
      split
      · exact hbehind [] hcomma
      · exact .none
    · exact .none

/-- The alias of a name that ends at equal levels, and the level behind it. -/
theorem aliasFrom_level (target : Text) {after after' : Nat} (h : Level s s' after after') :
    (aliasFrom s' target after').1 = (aliasFrom s target after).1 ∧
      Level s s' (aliasFrom s target after).2 (aliasFrom s' target after').2 := by
  have hindex : Option.Rel (Matches s s') (aliasIndex? s after) (aliasIndex? s' after') := by
    refine Option.rel_bind (h.findNext hcode fun _ hk => hk) fun word word' hword => ?_
    rw [hword.content hcode]
    split
    · exact hword.nextSignificant hcode
    · exact .none
  rw [aliasFrom_eq, aliasFrom_eq]
  generalize aliasIndex? s after = name?, aliasIndex? s' after' = name?' at hindex
  cases hindex with
  | none => exact ⟨rfl, h⟩
  | some hname => exact ⟨hname.content hcode, hname.level_succ⟩

variable (hnames : s.SameNames s')
include hnames

/-- One step through a statement, at a name that starts a group in both streams or in neither. -/
theorem step_matches {useIndex useIndex' : Nat} (huse : Matches s s' useIndex useIndex')
    {c c' : UseCursor} (h : c.Same s s' c')
    (hgroup : startsGroup s' c'.index = startsGroup s c.index) :
    Option.Rel (Import.Same s s') (step s useIndex c).1 (step s' useIndex' c').1 ∧
      Option.Rel (UseCursor.Same s s') (step s useIndex c).2 (step s' useIndex' c').2 := by
  unfold startsGroup at hgroup
  unfold step
  have hname := hnames.name c.index c'.index h.index
  generalize s.readName? c.index = read, s'.readName? c'.index = read' at hname hgroup ⊢
  cases hname with
  | none => exact ⟨.none, .none⟩
  | @some r r' hread =>
    obtain ⟨name, after⟩ := r
    obtain ⟨name', after'⟩ := r'
    obtain ⟨hsame, hlevel⟩ := hread
    dsimp only at hsame hlevel hgroup ⊢
    obtain rfl := hsame
    rw [Option.any_some, Option.any_some] at hgroup
    dsimp only at hgroup
    by_cases hopener : s.isAt after (.opens .curly) = true
    · rw [hopener] at hgroup
      have hmatch : Matches s s' after after' :=
        ⟨TokenStream.has_of_isAt hopener _, TokenStream.has_of_isAt hgroup _, hlevel⟩
      rw [if_pos hopener, if_pos hgroup]
      refine ⟨.none, ?_⟩
      have hfirst := hmatch.nextSignificant hcode
      generalize s.nextSignificant after = first?, s'.nextSignificant after' = first?' at hfirst ⊢
      cases hfirst with
      | none => exact .none
      | some hfirst => exact .some ⟨hfirst, rfl⟩
    · rw [hgroup, if_neg hopener, if_neg hopener, h.group]
      obtain ⟨hshort, hpast⟩ := aliasFrom_level hcode (targetOf c.group name') hlevel
      exact ⟨.some ⟨huse, hshort, rfl⟩, cursorAfter?_level hcode c.group hpast⟩

/-- From cursors at tokens that match a statement imports the same names. -/
theorem fromCursor_matches {useIndex useIndex' : Nat} (huse : Matches s s' useIndex useIndex')
    {c c' : UseCursor} (h : c.Same s s' c')
    (hgroup : ∀ d ∈ cursorsFrom s useIndex c, ∀ i', Matches s s' d.index i' →
      startsGroup s' i' = startsGroup s d.index) :
    List.Forall₂ (Import.Same s s') (fromCursor s useIndex c) (fromCursor s' useIndex' c') := by
  have hlist {o : Option Import} {o' : Option Import} (ho : Option.Rel (Import.Same s s') o o') :
      List.Forall₂ (Import.Same s s') o.toList o'.toList := by
    cases ho with
    | none => exact .nil
    | some him => exact .cons him .nil
  induction c using fromCursor.induct s useIndex generalizing c' with
  | case1 c hstop =>
    rw [cursorsFrom_eq] at hgroup
    obtain ⟨hfirst, hnext⟩ := step_matches hcode hnames huse h
      (hgroup c List.mem_cons_self c'.index h.index)
    rw [hstop] at hnext
    rw [fromCursor_eq, fromCursor_eq s', hstop]
    generalize (step s' useIndex' c').2 = next?' at hnext ⊢
    cases hnext
    rw [Option.map_none, Option.map_none, Option.getD_none, List.append_nil, List.append_nil]
    exact hlist hfirst
  | case2 c next hgo ih =>
    rw [cursorsFrom_eq, hgo] at hgroup
    obtain ⟨hfirst, hnext⟩ := step_matches hcode hnames huse h
      (hgroup c List.mem_cons_self c'.index h.index)
    rw [hgo] at hnext
    rw [fromCursor_eq, fromCursor_eq s', hgo]
    generalize (step s' useIndex' c').2 = next?' at hnext ⊢
    cases hnext with
    | some hnext =>
      exact List.rel_append (hlist hfirst)
        (ih hnext fun d hd => hgroup d (List.mem_cons_of_mem c hd))

/-- Statements at keywords that match import the same names. -/
theorem ofUse_matches {useIndex useIndex' : Nat} (huse : Matches s s' useIndex useIndex')
    (hgroup : ∀ c ∈ cursors s useIndex, ∀ i', Matches s s' c.index i' →
      startsGroup s' i' = startsGroup s c.index) :
    List.Forall₂ (Import.Same s s') (ofUse s useIndex) (ofUse s' useIndex') := by
  unfold ofUse
  unfold cursors at hgroup
  have hfirst := huse.nextSignificant hcode
  generalize s.nextSignificant useIndex = first?, s'.nextSignificant useIndex' = first?' at hfirst hgroup ⊢
  cases hfirst with
  | none => exact .nil
  | @some first first' hfirst =>
    dsimp only at hgroup ⊢
    rw [hfirst.content hcode]
    by_cases hforeign : isForeign (s.content first) = true
    · rw [if_pos hforeign, if_pos hforeign]
      exact .nil
    · rw [if_neg hforeign] at hgroup
      rw [if_neg hforeign, if_neg hforeign]
      exact fromCursor_matches hcode hnames huse ⟨hfirst, rfl⟩ hgroup

end SameCode

end Import

/-! ## Scopes -/

/-- Statements that open one namespace by keywords that match. -/
structure NamespaceMark.Same (s s' : TokenStream) (m m' : NamespaceMark) : Prop where
  index : Matches s s' m.index m'.index
  name : m'.name = m.name

/-- Scopes whose statements say the same at keywords that match. -/
structure NameScope.Same (s s' : TokenStream) (scope scope' : NameScope) : Prop where
  marks : List.Forall₂ (NamespaceMark.Same s s') scope.marks scope'.marks
  imports : List.Forall₂ (Import.Same s s') scope.imports scope'.imports

namespace NameScope

section SameCode

variable (hcode : s'.code = s.code)
include hcode

/-- Keywords that match open the same namespace. -/
theorem mark?_matches (hnames : s.SameNames s') (h : Matches s s' i i') :
    Option.Rel (NamespaceMark.Same s s') (mark? s i) (mark? s' i') := by
  unfold mark?
  rw [h.isAt hcode]
  split
  · refine Option.rel_bind (h.nextSignificant hcode) fun start start' hstart => ?_
    rw [hstart.isAt hcode]
    split
    · exact .none
    · refine .some ⟨h, ?_⟩
      have hname := hnames.name start start' hstart
      generalize s.readName? start = read, s'.readName? start' = read' at hname ⊢
      cases hname with
      | none => rfl
      | some hread => exact hread.1
  · exact .none

/-- What the keyword of an import is asked for is told. -/
theorem told_startsImport {bodies bodies' : List (Nat × Nat)}
    (hbodies : List.Forall₂ (MatchBodies s s') bodies bodies') :
    Told s s' (startsImport s bodies) (startsImport s' bodies') := by
  have hkeyword {s : TokenStream} {bodies : List (Nat × Nat)} {k : Nat}
      (hk : startsImport s bodies k = true) : s.has k Kind.isSignificant = true := by
    rw [startsImport, Bool.and_eq_true, Bool.and_eq_true] at hk
    exact TokenStream.has_of_isAt hk.1.1 _
  refine ⟨fun _ => hkeyword, fun _ => hkeyword, fun k k' hk => ?_⟩
  have hround := Option.any_of_rel (hk.previousSignificant hcode) fun _ _ hbefore =>
    hbefore.isAt hcode (.closes .round)
  have hinside : bodies'.any (TokenStream.inside k') = bodies.any (TokenStream.inside k) := by
    induction hbodies with
    | nil => rfl
    | cons hbody _ ih => rw [List.any_cons, List.any_cons, hbody.inside hk, ih]
  rw [startsImport, startsImport, hk.isAt hcode, hinside, hround]

end SameCode

section Sources

variable {source source' : Text} (hs : TokenStream.ofSource source = .ok s)
  (hs' : TokenStream.ofSource source' = .ok s') (hcode : s'.code = s.code)
include hs hs' hcode

/-- The bodies of types match one by one. -/
theorem typeBodies_matches : List.Forall₂ (MatchBodies s s') (typeBodies s) (typeBodies s') := by
  have hsignificant {s : TokenStream} {k : Nat}
      (hk : (s.isTypeDeclaration k || s.isAnonymousClass k) = true) :
      s.has k Kind.isSignificant = true := by
    rcases (Bool.or_eq_true _ _).mp hk with hk | hk
    · exact TokenStream.isSignificant_of_isTypeDeclaration hk
    · rw [TokenStream.isAnonymousClass, Bool.and_eq_true] at hk
      exact TokenStream.has_of_isAt hk.1 _
  have htold : Told s s' (fun k => s.isTypeDeclaration k || s.isAnonymousClass k)
      (fun k => s'.isTypeDeclaration k || s'.isAnonymousClass k) :=
    ⟨fun _ => hsignificant, fun _ => hsignificant, fun _ _ hk => by
      rw [hk.isTypeDeclaration hcode, hk.isAnonymousClass hcode]⟩
  exact List.rel_filterMap (fun _ _ hk => hk.body? hs hs' hcode) (htold.forall₂_filter_range hcode)

/-- Streams of one code have scopes in which names mean the same. -/
theorem ofStream_same (hnames : s.SameNames s') : (ofStream s).Same s s' (ofStream s') := by
  constructor
  case marks =>
    have hkept (s : TokenStream) :
        (List.range s.size).filterMap (mark? s) = s.codeIndices.filterMap (mark? s) := by
      rw [TokenStream.codeIndices, List.filterMap_filter]
      refine List.filterMap_congr fun k _ => ?_
      split
      · rfl
      · next hk =>
        rw [mark?, TokenStream.not_isAt_keyword (eq_false_of_ne_true hk), if_neg Bool.false_ne_true]
    simp only [ofStream]
    rw [hkept, hkept]
    exact List.rel_filterMap (fun _ _ hk => mark?_matches hcode hnames hk)
      (TokenStream.forall₂_codeIndices hcode)
  case imports =>
    have htold := told_startsImport hcode (typeBodies_matches hs hs' hcode)
    have hstarts := htold.forall₂_filter_range hcode
    have hgroups (useIndex : Nat)
        (huse : useIndex ∈ (List.range s.size).filter (startsImport s (typeBodies s))) :
        ∀ c ∈ Import.cursors s useIndex, ∀ i', Matches s s' c.index i' →
          Import.startsGroup s' i' = Import.startsGroup s c.index := fun c hc =>
      hnames.group c (List.mem_flatMap.2 ⟨useIndex, huse, hc⟩)
    refine List.rel_flatMap ((List.forall₂_and_left _ _).2 ⟨hgroups, hstarts⟩) ?_
    rintro useIndex useIndex' ⟨hgroup, huse⟩
    exact Import.ofUse_matches hcode hnames huse hgroup

end Sources

end NameScope

/-! ## Names -/

/-- The first token of a source is an open tag, or the text before it. -/
theorem TokenStream.isSignificant_zero {source : Text} (hs : TokenStream.ofSource source = .ok s)
    (hsize : 0 < s.size) : s.has 0 Kind.isSignificant = true := by
  obtain ⟨hfault, htokens⟩ := TokenStream.scan_of_ofSource hs
  have hlaid : TokenStream.LaidOut source s _ := ⟨Scan.reads_ofText hfault, htokens⟩
  rw [TokenStream.has, hlaid.kind?_eq]
  rw [hlaid.size_eq] at hsize
  generalize Token.withoutMark source = text at hsize ⊢
  cases text with
  | nil =>
    rw [Scan.ofText] at hsize
    cases hsize
  | cons c rest =>
    rw [Scan.ofText]
    split <;> rfl

/-- Where the streams have a token that matches, the first ones do. -/
theorem TokenStream.Matches.zero {source source' : Text} (hs : TokenStream.ofSource source = .ok s)
    (hs' : TokenStream.ofSource source' = .ok s') (h : Matches s s' i i') : Matches s s' 0 0 := by
  refine ⟨TokenStream.isSignificant_zero hs ?_, TokenStream.isSignificant_zero hs' ?_,
    TokenStream.level_zero s s'⟩
  · exact Nat.zero_lt_of_lt (TokenStream.lt_size_of_has h.left)
  · exact Nat.zero_lt_of_lt (TokenStream.lt_size_of_has h.right)

namespace NameScope

section Meaning

variable {scope scope' : NameScope} (hscope : scope.Same s s' scope')
include hscope

/-- The statements that govern tokens that match do match. -/
theorem markAt?_matches (h : Matches s s' i i') :
    Option.Rel (NamespaceMark.Same s s') (scope.markAt? i) (scope'.markAt? i') :=
  List.find?_rel (fun m m' hm => by rw [decide_eq_decide, hm.index.lt_iff h])
    (List.rel_reverse hscope.marks)

/-- A statement governs the one token when the other one governs the other. -/
theorem governs_matches {start start' : Nat} (hstart : Matches s s' start start')
    (h : Matches s s' i i') : scope'.governs start' i' = scope.governs start i := by
  have hle : start' ≤ i' ↔ start ≤ i := by rw [← Nat.not_lt, ← Nat.not_lt, h.lt_iff hstart]
  have hnext : Option.Rel (NamespaceMark.Same s s') (scope.marks.find? (start < ·.index))
      (scope'.marks.find? (start' < ·.index)) :=
    List.find?_rel (fun m m' hm => by rw [decide_eq_decide, hstart.lt_iff hm.index]) hscope.marks
  rw [governs, governs, decide_eq_decide.2 hle, Option.all_of_rel hnext fun m m' hm =>
    decide_eq_decide.2 (h.lt_iff hm.index)]

/-- A name has one meaning at tokens that match. -/
theorem qualify_matches (hzero : Matches s s' 0 0) (h : Matches s s' i i') (name : Text) :
    scope'.qualify name i' = scope.qualify name i := by
  have hmark : NamespaceMark.Same s s' ((scope.markAt? i).getD ⟨0, []⟩)
      ((scope'.markAt? i').getD ⟨0, []⟩) := by
    have hfound := markAt?_matches hscope h
    generalize scope.markAt? i = mark?, scope'.markAt? i' = mark?' at hfound ⊢
    cases hfound with
    | none => exact ⟨hzero, rfl⟩
    | some hm => exact hm
  rw [qualify_eq, qualify_eq]
  cases Text.stripStart ['\\'] name with
  | some absolute => rfl
  | none =>
    generalize (scope.markAt? i).getD ⟨0, []⟩ = mark, (scope'.markAt? i').getD ⟨0, []⟩ = mark'
      at hmark ⊢
    have himport : Option.Rel (Import.Same s s') (scope.import? mark.index (splitFirst name).1)
        (scope'.import? mark'.index (splitFirst name).1) :=
      List.find?_rel
        (fun im im' him => by
          rw [governs_matches hscope hmark.index him.index, him.shortName]) hscope.imports
    dsimp only
    generalize scope.import? mark.index (splitFirst name).1 = im?,
      scope'.import? mark'.index (splitFirst name).1 = im?' at himport ⊢
    cases himport with
    | none => rw [hmark.name]
    | some him =>
      cases (splitFirst name).2 with
      | none => exact him.target
      | some rest => exact congrArg (qualifyWith · rest) him.target

end Meaning

end NameScope

end PhpLint

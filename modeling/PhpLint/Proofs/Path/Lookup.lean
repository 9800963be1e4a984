import Mathlib.Data.List.Induction
import Mathlib.Data.List.TakeWhile
import PhpLint.Proofs.Path.Join
import PhpLint.Workspace

/-!
# Where paths lead

In a tree a path leads along names, and with one more name at its end it leads to the entry of that name
(`FileTree.names?_name`).  The paths that contain the path along a list of names are those along the shorter
lists (`FilePath.parent?_ofNames_append`).

The path of a file ends with the file's name (`FileTree.exists_of_isFile`).  Without the name it leads to
the directory of the file if anything is left of it (`FilePath.exists_parent?`); an empty path leads
nowhere.
-/

namespace PhpLint

namespace FilePath

open Component (IsName)

variable {name : Text} {names : List Text}

/-! ## Paths along names -/

/-- What a base puts in front of a path is put together part by part. -/
theorem front_append {t : Text} (ht : t ≠ []) (s : Text) : front (s ++ t) = s ++ front t := by
  induction s with
  | nil => rfl
  | cons c s ih =>
    rw [List.cons_append, front_cons c (List.append_ne_nil_of_right_ne_nil s ht), ih, List.cons_append]

/-- What a base puts in front is nothing, or ends with a slash. -/
theorem front_eq_nil_or (s : Text) : front s = [] ∨ ∃ rest, front s = rest ++ ['/'] := by
  unfold front
  split
  · next h => exact h.imp_right List.getLast?_eq_some_iff.1
  · exact .inr ⟨s, rfl⟩

theorem front_of_isName (h : IsName name) : front name = name ++ ['/'] := by
  have hlast : name.getLast? ≠ some '/' := fun hlast => h.one (List.mem_of_getLast? hlast)
  rw [front, if_neg (by simp [ne_nil_of_isName h, hlast])]

/-- A base that ends with a name puts itself and a slash in front. -/
theorem front_append_name (h : IsName name) (s : Text) : front (s ++ name) = s ++ name ++ ['/'] := by
  rw [front_append (ne_nil_of_isName h), front_of_isName h, List.append_assoc]

/-- Names with slashes between are not empty, if there are any. -/
theorem joinWith_cons_ne_nil (h : IsName name) (names : List Text) :
    Text.joinWith ['/'] (name :: names) ≠ [] := by
  cases names with
  | nil => exact ne_nil_of_isName h
  | cons next names => simp [Text.joinWith]

/-- One more name goes behind what the others put in front. -/
theorem joinWith_append (hnames : ∀ n ∈ names, IsName n) (name : Text) :
    Text.joinWith ['/'] (names ++ [name]) = front (Text.joinWith ['/'] names) ++ name := by
  induction names with
  | nil => rfl
  | cons first names ih =>
    obtain ⟨hfirst, hrest⟩ := List.forall_mem_cons.1 hnames
    cases names with
    | nil => simp [Text.joinWith, front_of_isName hfirst]
    | cons next names =>
      have hnext := (List.forall_mem_cons.1 hrest).1
      have hjoin (more : List Text) : Text.joinWith ['/'] (first :: next :: more) =
          first ++ ['/'] ++ Text.joinWith ['/'] (next :: more) := rfl
      rw [List.cons_append, List.cons_append, hjoin, ← List.cons_append, ih hrest, hjoin,
        front_append (joinWith_cons_ne_nil hnext names), List.append_assoc (first ++ ['/'])]

/-- One more name is joined to the path along the others. -/
theorem join_ofNames (hnames : ∀ n ∈ names, IsName n) (hname : IsName name) :
    (ofNames names).join ⟨name⟩ = ofNames (names ++ [name]) := by
  rw [join_eq (isBody_of_isName hname).isAbsolute_eq_false, ofNames, ofNames, joinWith_append hnames,
    front_slash, List.cons_append]

/-- The components of a path along names are the names. -/
theorem bodyComponents_ofNames (hnames : ∀ n ∈ names, IsName n) :
    bodyComponents (ofNames names).text = names.map .name := by
  induction names using List.reverseRecOn with
  | nil => simp [ofNames, Text.joinWith, bodyComponents, Text.splitOn, Component.ofPiece?]
  | append_singleton names name ih =>
    have hname := hnames name (List.mem_append_right _ List.mem_cons_self)
    have hrest : ∀ n ∈ names, IsName n := fun n hn => hnames n (List.mem_append_left _ hn)
    rw [← join_ofNames hrest hname, join_eq (isBody_of_isName hname).isAbsolute_eq_false,
      bodyComponents_front_append, ih hrest, bodyComponents_of_isName hname, List.map_append]
    rfl

/-- A named component is a name. -/
theorem isName_of_mem_bodyComponents {t : Text} (h : .name name ∈ bodyComponents t) :
    IsName name := by
  obtain ⟨piece, hpiece, hname⟩ := List.mem_filterMap.1 h
  obtain ⟨k, hk⟩ := List.mem_iff_getElem?.1 hpiece
  obtain ⟨before, after, hsplit, -⟩ := Text.exists_isPiece hk
  have heq : piece = name := by
    unfold Component.ofPiece? at hname
    split at hname
    · cases hname
    · split at hname
      · cases hname
      · exact Component.name.inj (Option.some.inj hname)
  subst heq
  exact ⟨hsplit.free, hname⟩

/-! ## The path of what contains a path -/

/-- The name behind the last slash of a path's body is cut off with the slash. -/
theorem parent?_eq {p : FilePath} {start front : Text} (hname : IsName name)
    (hsplit : splitStart p.text = (start, front ++ '/' :: name)) :
    p.parent? = some ⟨start ++ trimEnd front⟩ := by
  have htrim : trimEnd (front ++ '/' :: name) = front ++ '/' :: name := by
    simpa using trimEnd_append_name hname (front ++ ['/'])
  have hdrop : (name.reverse ++ '/' :: front.reverse).dropWhile (· != '/') = '/' :: front.reverse := by
    rw [List.dropWhile_append_of_pos]
    · rfl
    · intro c hc
      simpa using ne_of_mem_of_not_mem (List.mem_reverse.1 hc) hname.one
  rw [parent?, hsplit]
  dsimp only
  rw [htrim, if_neg (by simp), List.reverse_append, List.reverse_cons, List.append_assoc,
    List.singleton_append, hdrop, List.drop_one, List.tail_cons, List.reverse_reverse]

/-- Without the name that is its whole body, a path is its start. -/
theorem parent?_eq_start {p : FilePath} {start : Text} (hname : IsName name)
    (hsplit : splitStart p.text = (start, name)) : p.parent? = some ⟨start⟩ := by
  have hdrop : name.reverse.dropWhile (· != '/') = [] := by
    rw [List.dropWhile_eq_nil_iff]
    intro c hc
    simpa using ne_of_mem_of_not_mem (List.mem_reverse.1 hc) hname.one
  have hname' : trimEnd name = name := trimEnd_append_name hname []
  have hnil : trimEnd [] = [] := rfl
  rw [parent?, hsplit]
  dsimp only
  rw [hname', if_neg (ne_nil_of_isName hname), hdrop,
    List.drop_nil, List.reverse_nil, hnil, List.append_nil]

theorem splitStart_slash (t : Text) : splitStart ('/' :: t) = (['/'], t) := by
  simp [splitStart, startOf]

theorem splitStart_dot (t : Text) : splitStart ('.' :: '/' :: t) = (['.'], '/' :: t) := by
  simp [splitStart, startOf]

/-- A path that starts with a name has no start of its own. -/
theorem splitStart_of_isBody {t : Text} (h : IsBody t) : splitStart t = ([], t) := by
  have hstart : startOf t = (none, t) := h
  simp only [splitStart, hstart]

/-- Trimming a text behind a dot leaves the components, if it starts with a slash. -/
theorem bodyComponents_dot_trimEnd (t : Text) :
    bodyComponents ('.' :: trimEnd ('/' :: t)) = bodyComponents t := by
  have htrim := bodyComponents_trimEnd ('/' :: t)
  rw [bodyComponents_slash_cons] at htrim
  obtain ⟨removed, hremoved⟩ := trimEnd_isPrefix ('/' :: t)
  cases hleft : trimEnd ('/' :: t) with
  | nil =>
    rw [hleft] at htrim
    rw [← htrim]
    exact bodyComponents_append_dot []
  | cons c left =>
    rw [hleft, List.cons_append] at hremoved
    obtain ⟨rfl, -⟩ := List.cons.inj hremoved
    rw [hleft, bodyComponents_slash_cons] at htrim
    rw [bodyComponents_dot_cons, htrim]

/-- Without its name a path with a slash is a path still, with the components before the name. -/
theorem exists_parent? (before : Text) (hname : IsName name) :
    ∃ q, parent? ⟨before ++ '/' :: name⟩ = some q ∧ q.text ≠ [] ∧
      q.isAbsolute = isAbsolute ⟨before ++ '/' :: name⟩ ∧
      bodyComponents q.text = bodyComponents before := by
  by_cases hbefore : IsBody before
  · by_cases hne : before = []
    · subst hne
      exact ⟨_, parent?_eq_start hname (splitStart_slash name), by simp, rfl,
        bodyComponents_slash_cons []⟩
    have hwhole := hbefore.append hne ('/' :: name)
    refine ⟨⟨trimEnd before⟩, parent?_eq hname (splitStart_of_isBody hwhole), ?_, ?_,
      bodyComponents_trimEnd before⟩
    · intro hnil
      refine hne (eq_nil_of_isBody hbefore ?_)
      rw [← bodyComponents_trimEnd, show trimEnd before = [] from hnil]
      rfl
    · exact hbefore.trimEnd.isAbsolute_eq_false.trans (hwhole.isAbsolute_eq_false (p := ⟨_⟩)).symm
  · rw [isBody_iff, not_and_or, not_and_or, not_not, not_not, not_not] at hbefore
    rcases hbefore with ⟨rest, rfl⟩ | rfl | ⟨rest, rfl⟩
    · exact ⟨_, parent?_eq hname (splitStart_slash (rest ++ '/' :: name)), by simp, rfl,
        (bodyComponents_slash_cons _).trans ((bodyComponents_trimEnd rest).trans
          (bodyComponents_slash_cons rest).symm)⟩
    · have hsplit : splitStart ('.' :: '/' :: name) = (['.'], [] ++ '/' :: name) := splitStart_dot name
      exact ⟨_, parent?_eq hname hsplit, by simp, rfl, rfl⟩
    · have hsplit : splitStart ('.' :: '/' :: rest ++ '/' :: name) =
          (['.'], ('/' :: rest) ++ '/' :: name) := splitStart_dot (rest ++ '/' :: name)
      exact ⟨_, parent?_eq hname hsplit, by simp, rfl,
        (bodyComponents_dot_trimEnd rest).trans (bodyComponents_dot_cons rest).symm⟩

/-- What contains a path along names is the path along all but the last. -/
theorem parent?_ofNames_append (hnames : ∀ n ∈ names, IsName n) (hname : IsName name) :
    (ofNames (names ++ [name])).parent? = some (ofNames names) := by
  have hsplit : splitStart (ofNames (names ++ [name])).text =
      (['/'], front (Text.joinWith ['/'] names) ++ name) := by
    rw [ofNames, joinWith_append hnames, splitStart_slash]
  induction names using List.reverseRecOn with
  | nil => exact parent?_eq_start hname hsplit
  | append_singleton names last =>
    have hlast := hnames last (List.mem_append_right _ List.mem_cons_self)
    have hrest : ∀ n ∈ names, IsName n := fun n hn => hnames n (List.mem_append_left _ hn)
    rw [joinWith_append hrest, front_append_name hlast, List.append_assoc _ ['/'],
      List.singleton_append] at hsplit
    rw [parent?_eq hname hsplit, trimEnd_append_name hlast, ofNames, joinWith_append hrest]
    rfl

/-- The path along no names is the last to be looked at. -/
theorem ancestors_ofNames_nil : (ofNames []).ancestors = [ofNames []] := by
  rw [ancestors]
  rfl

/-- Around a path along names lie the paths along fewer of them. -/
theorem ancestors_ofNames_append (hnames : ∀ n ∈ names, IsName n) (hname : IsName name) :
    (ofNames (names ++ [name])).ancestors =
      ofNames (names ++ [name]) :: (ofNames names).ancestors := by
  rw [ancestors]
  split
  · next p hp =>
    rw [parent?_ofNames_append hnames hname] at hp
    rw [Option.some.inj hp]
  · next hnone =>
    rw [parent?_ofNames_append hnames hname] at hnone
    cases hnone

end FilePath

namespace FileTree

open Component (IsName)
open FilePath (bodyComponents front)

variable {t node : FileTree} {names : List Text} {name : Text} {p : FilePath}

/-! ## Down a tree -/

/-- A path down a tree goes on from where its first part leads. -/
theorem below?_append (t : FileTree) (names more : List Text) :
    t.below? (names ++ more) = (t.below? names).bind (below? · more) := by
  induction names generalizing t with
  | nil => rfl
  | cons name names ih =>
    rw [List.cons_append, below?, below?, Option.bind_assoc]
    exact Option.bind_congr fun child _ => ih child

/-- The last step of a path is one to an entry. -/
theorem below?_append_singleton (t : FileTree) (names : List Text) (name : Text) :
    t.below? (names ++ [name]) = (t.below? names).bind (child? · name) := by
  rw [below?_append]
  refine Option.bind_congr fun node _ => ?_
  cases hchild : node.child? name <;> simp [below?, hchild]

/-- What has an entry is a directory. -/
theorem isDirectory_of_child? {child : FileTree} (h : node.child? name = some child) :
    node.isDirectory = true := by
  cases node with
  | file content => cases h
  | directory entries => rfl

/-- Around whatever a list of names leads to there are directories. -/
theorem exists_directory_of_below? (h : t.below? (names ++ [name]) = some node) :
    ∃ directory, t.below? names = some directory ∧ directory.isDirectory = true := by
  rw [below?_append_singleton, Option.bind_eq_some_iff] at h
  obtain ⟨directory, hdirectory, hchild⟩ := h
  exact ⟨directory, hdirectory, isDirectory_of_child? hchild⟩

/-- Where a path leads is told by its components behind the start. -/
theorem foldlM_components (t : FileTree) (p : FilePath) :
    p.components.foldlM t.step? [] = (bodyComponents p.text).foldlM t.step? [] := by
  obtain ⟨text⟩ := p
  by_cases hbody : FilePath.IsBody text
  · rw [FilePath.components_of_isBody hbody]
  · rw [FilePath.isBody_iff, not_and_or, not_and_or, not_not, not_not, not_not] at hbody
    rcases hbody with ⟨rest, rfl⟩ | rfl | ⟨rest, rfl⟩
    · rw [FilePath.components_eq, List.singleton_append, FilePath.bodyComponents_slash_cons]
      rfl
    · rw [FilePath.components_eq]
      simp [FilePath.startOf, bodyComponents, Text.splitOn, Component.ofPiece?, step?]
    · rw [FilePath.components_eq, List.cons_append, List.singleton_append,
        FilePath.bodyComponents_dot_cons, ← FilePath.bodyComponents_slash_cons rest]
      rfl

/-- The path along names leads along them. -/
theorem foldlM_map_name (h : t.below? names = some node) :
    (names.map Component.name).foldlM t.step? [] = some names := by
  induction names using List.reverseRecOn generalizing node with
  | nil => rfl
  | append_singleton names name ih =>
    obtain ⟨directory, hdirectory, -⟩ := exists_directory_of_below? h
    rw [below?_append_singleton, hdirectory, Option.bind_some] at h
    rw [List.map_append, List.foldlM_append, ih hdirectory]
    simp [step?, hdirectory, h]

/-- The names that a path leads along are names. -/
theorem isName_of_foldlM {cs : List Component} (hcs : ∀ n, .name n ∈ cs → IsName n) {front : List Text}
    (hfront : ∀ n ∈ front, IsName n) (h : cs.foldlM t.step? front = some names) :
    ∀ n ∈ names, IsName n := by
  induction cs generalizing front with
  | nil =>
    obtain rfl := Option.some.inj h
    exact hfront
  | cons c cs ih =>
    rw [List.foldlM_cons, Option.bind_eq_bind, Option.bind_eq_some_iff] at h
    obtain ⟨next, hstep, hrest⟩ := h
    refine ih (fun n hn => hcs n (List.mem_cons_of_mem c hn)) ?_ hrest
    cases c with
    | root =>
      obtain rfl := Option.some.inj hstep
      simp
    | current =>
      obtain rfl := Option.some.inj hstep
      exact hfront
    | parent =>
      obtain ⟨-, -, rfl⟩ := Option.map_eq_some_iff.1 hstep
      exact fun n hn => hfront n ((List.dropLast_sublist front).subset hn)
    | name name =>
      obtain ⟨-, -, rfl⟩ := Option.map_eq_some_iff.1 hstep
      intro n hn
      rcases List.mem_append.1 hn with hn | hn
      · exact hfront n hn
      · rw [List.mem_singleton.1 hn]
        exact hcs name List.mem_cons_self

/-- A path leads along names when each of its steps is one of the tree, and to a directory if it has to.
-/
theorem names?_eq_some_iff : t.names? p = some names ↔ p.text ≠ [] ∧
    (bodyComponents p.text).foldlM t.step? [] = some names ∧
    ∃ node, t.below? names = some node ∧ (wantsDirectory p = true → node.isDirectory = true) := by
  rw [names?, foldlM_components]
  simp only [Option.bind_eq_bind, Option.bind_eq_some_iff, Option.ite_none_left_eq_some,
    Bool.or_eq_true, List.isEmpty_iff, Bool.and_eq_true, isFile, Bool.not_eq_true', not_or, not_and,
    Bool.not_eq_false, Option.some.injEq]
  constructor
  · rintro ⟨_, hfold, node, hnode, ⟨hne, hkind⟩, rfl⟩
    exact ⟨hne, hfold, node, hnode, hkind⟩
  · rintro ⟨hne, hfold, node, hnode, hkind⟩
    exact ⟨names, hfold, node, hnode, ⟨hne, hkind⟩, rfl⟩

/-- A path that ends with a name may lead to a file. -/
theorem wantsDirectory_of_isName (hname : IsName name) (before : Text) :
    wantsDirectory ⟨before ++ name⟩ = false := by
  -- What asks for a directory is trimmed off the end.
  have htrim := congrArg List.length (FilePath.trimEnd_append_name hname before)
  rw [← Bool.not_eq_true]
  intro hwants
  simp only [wantsDirectory, Bool.or_eq_true, beq_iff_eq, Text.endsWith,
    List.isSuffixOf_iff_suffix] at hwants
  rcases hwants with (hdot | ⟨rest, hrest⟩) | ⟨rest, hrest⟩
  · rw [hdot] at htrim
    exact absurd htrim (by decide)
  · have hle := FilePath.length_trimEnd_le rest
    have hslash : FilePath.trimEnd (rest ++ ['/']) = FilePath.trimEnd rest := by
      simp [FilePath.trimEnd, FilePath.trimBackward]
    rw [← hrest, hslash, List.length_append, List.length_singleton] at htrim
    omega
  · have hle := FilePath.length_trimEnd_le rest
    have hslash : FilePath.trimEnd (rest ++ ['/', '.']) = FilePath.trimEnd rest := by
      simp [FilePath.trimEnd, FilePath.trimBackward]
    rw [← hrest, hslash, List.length_append] at htrim
    simp at htrim
    omega

/-- A path with a name at its end leads below where it leads without the name. -/
theorem names?_name {before : Text} (hname : IsName name)
    (hbefore : (bodyComponents before).foldlM t.step? [] = some names) :
    t.names? ⟨front before ++ name⟩ =
      (t.below? (names ++ [name])).map fun _ => names ++ [name] := by
  have hfold : (bodyComponents (front before ++ name)).foldlM t.step? [] =
      (t.below? (names ++ [name])).map fun _ => names ++ [name] := by
    rw [FilePath.bodyComponents_front_append, FilePath.bodyComponents_of_isName hname,
      List.foldlM_append, hbefore, below?_append_singleton]
    simp [step?]
  cases hnode : t.below? (names ++ [name]) with
  | none =>
    rw [hnode] at hfold
    rw [names?, foldlM_components, hfold]
    rfl
  | some node =>
    rw [hnode] at hfold
    refine names?_eq_some_iff.2 ⟨by simp [FilePath.ne_nil_of_isName hname], hfold, node, hnode, ?_⟩
    rw [wantsDirectory_of_isName hname]
    simp

/-- Out of a directory a path leads to another one. -/
theorem isDirectory_of_step?_parent {own : List Text} (h : t.step? own .parent = some names)
    (hnode : t.below? names = some node) : node.isDirectory = true := by
  obtain ⟨directory, hdirectory, rfl⟩ := Option.map_eq_some_iff.1 h
  obtain ⟨hbelow, hkind⟩ := Option.filter_eq_some_iff.1 hdirectory
  cases own using List.reverseRecOn with
  | nil =>
    rw [Option.some.inj (hnode.symm.trans hbelow), hkind]
  | append_singleton own name =>
    obtain ⟨parent, hparent, hkind'⟩ := exists_directory_of_below? hbelow
    rw [List.dropLast_concat] at hnode
    rw [Option.some.inj (hnode.symm.trans hparent), hkind']

/-- Without a name in it, the last piece of a path asks for a directory. -/
theorem wantsDirectory_front {before : Text} (hvoid : name = [] ∨ name = ['.'])
    (hne : front before ++ name ≠ []) : wantsDirectory ⟨front before ++ name⟩ = true := by
  rcases hvoid with rfl | rfl <;> rcases FilePath.front_eq_nil_or before with hnil | ⟨rest, hrest⟩
  · simp [hnil] at hne
  · simp [wantsDirectory, hrest, Text.endsWith]
  · simp [wantsDirectory, hnil]
  · simp [wantsDirectory, hrest, Text.endsWith]

/-- A path to a file ends with the file's name. -/
theorem exists_of_isFile {before : Text} (hslash : '/' ∉ name)
    (h : t.names? ⟨front before ++ name⟩ = some names) (hnode : t.below? names = some node)
    (hfile : node.isDirectory = false) :
    IsName name ∧ ∃ own, (bodyComponents before).foldlM t.step? [] = some own ∧
      names = own ++ [name] := by
  obtain ⟨hne, hfold, node', hnode', hwants⟩ := names?_eq_some_iff.1 h
  obtain rfl := Option.some.inj (hnode.symm.trans hnode')
  rw [hfile] at hwants
  rw [FilePath.bodyComponents_front_append, FilePath.bodyComponents_of_not_mem hslash,
    List.foldlM_append, Option.bind_eq_bind, Option.bind_eq_some_iff] at hfold
  obtain ⟨own, hown, hstep⟩ := hfold
  by_cases hvoid : name = [] ∨ name = ['.']
  · exact absurd (hwants (wantsDirectory_front hvoid hne)) Bool.false_ne_true
  have hpiece : Component.ofPiece? name = if name = ['.', '.'] then some .parent else some (.name name) :=
    if_neg hvoid
  split at hpiece
  · rw [hpiece, Option.toList_some, List.foldlM_cons, Option.bind_eq_bind,
      Option.bind_eq_some_iff] at hstep
    obtain ⟨next, hnext, heq⟩ := hstep
    obtain rfl := Option.some.inj heq
    rw [isDirectory_of_step?_parent hnext hnode] at hfile
    cases hfile
  · rw [hpiece, Option.toList_some, List.foldlM_cons, Option.bind_eq_bind,
      Option.bind_eq_some_iff] at hstep
    obtain ⟨next, hnext, heq⟩ := hstep
    obtain rfl := Option.some.inj heq
    obtain ⟨-, -, hnames⟩ := Option.map_eq_some_iff.1 hnext
    exact ⟨⟨hslash, hpiece⟩, own, hown, hnames.symm⟩

end FileTree

end PhpLint

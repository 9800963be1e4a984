import PhpLint.Config.Source
import PhpLint.Proofs.Path.Lookup

/-!
# The search for a project's configuration

The search goes from the directory of the target up to the root and takes the nearest directory with a
configuration file (`nearest?_ofNames`).  It starts in the right place for every directory, and for every
file whose path has a slash (`resolved_find`).  What is left of a bare file name without the name is an
empty path, which leads nowhere: there, nothing is searched but the current directory.
-/

namespace PhpLint

namespace FilePath

/-- A joined path has the components of both, unless the second starts at the root. -/
theorem bodyComponents_join (p q : FilePath) : bodyComponents (p.join q).text =
    (if q.isAbsolute then [] else bodyComponents p.text) ++ bodyComponents q.text := by
  cases habsolute : q.isAbsolute with
  | true => simp [join, habsolute]
  | false => simp [join_eq habsolute, bodyComponents_front_append]

/-- What stands behind a relative path stays behind it when the path is joined to another. -/
theorem join_append (p : FilePath) {s : Text} (hs : s ≠ []) (t : Text) :
    p.join ⟨s ++ t⟩ = ⟨(p.join ⟨s⟩).text ++ t⟩ := by
  obtain ⟨c, s, rfl⟩ := List.exists_cons_of_ne_nil hs
  have habsolute : isAbsolute ⟨c :: s ++ t⟩ = isAbsolute ⟨c :: s⟩ := rfl
  unfold join
  rw [habsolute]
  split
  · rfl
  · split <;> simp

/-- Nothing joined to a path that is not empty is empty. -/
theorem join_ne_nil (p : FilePath) {q : FilePath} (hq : q.text ≠ []) : (p.join q).text ≠ [] := by
  unfold join
  split
  · exact hq
  · split <;> simp [hq]

/-- A path with a slash ends with what stands behind its last slash. -/
theorem exists_join_eq (p : FilePath) {q : FilePath} (hslash : '/' ∈ q.text) :
    ∃ before name, q.text = before ++ '/' :: name ∧ '/' ∉ name ∧
      p.join q = ⟨front (p.join ⟨before ++ ['/']⟩).text ++ name⟩ := by
  obtain ⟨after, rest, hreverse, hlast⟩ := List.eq_append_cons_of_mem (List.mem_reverse.2 hslash)
  have htext : q.text = rest.reverse ++ '/' :: after.reverse := by
    simpa using congrArg List.reverse hreverse
  refine ⟨rest.reverse, after.reverse, htext, by simpa using hlast, ?_⟩
  have hfront : front (p.join ⟨rest.reverse ++ ['/']⟩).text = (p.join ⟨rest.reverse ++ ['/']⟩).text := by
    by_cases hfirst : rest.reverse = []
    · rw [hfirst]
      rfl
    · rw [join_append p hfirst]
      simp [front]
  obtain ⟨text⟩ := q
  obtain rfl : text = rest.reverse ++ '/' :: after.reverse := htext
  rw [hfront, ← join_append p (by simp), List.append_assoc, List.singleton_append]

end FilePath

namespace ConfigSource

open Component (IsName)
open FilePath (bodyComponents front ofNames)

variable {w : Workspace} {p target : FilePath} {own dir : List Text} {name : String}

/-! ## What is searched for -/

/-- A configuration file of a project, given by the names of its directory and its own. -/
structure ConfigAt (tree : FileTree) (dir : List Text) (name : String) : Prop where
  listed : name ∈ projectNames
  file : (tree.below? (dir ++ [name.toList])).any FileTree.isFile = true

/-- Of the configuration files in the directories that are searched, one in the directory furthest down, and
the first one there. -/
structure Chosen (tree : FileTree) (searched : List Text → Prop) (dir : List Text) (name : String) :
    Prop where
  within : searched dir
  config : ConfigAt tree dir name
  nearest : ∀ dir' name', searched dir' → ConfigAt tree dir' name' → dir'.length ≤ dir.length
  first : ∀ name', ConfigAt tree dir name' → projectNames.idxOf name ≤ projectNames.idxOf name'

/-- What a search of directories finds. -/
inductive Found (w : Workspace) (searched : List Text → Prop) : Option FilePath → Prop
  | file {p : FilePath} {dir : List Text} {name : String}
      (chosen : Chosen w.tree searched dir name) (leads : w.names? p = some (dir ++ [name.toList])) :
      Found w searched (some p)
  | nothing (empty : ∀ dir name, searched dir → ¬ConfigAt w.tree dir name) : Found w searched none

/-- Where the configuration comes from when nothing is asked for: from the search, or else from the user, or
else from nowhere. -/
inductive Resolved (w : Workspace) (searched : List Text → Prop) : ConfigSource → Prop
  | project {p : FilePath} (found : Found w searched (some p)) : Resolved w searched (.project p)
  | shared {p : FilePath} (found : Found w searched none) (user : shared? w = some p) :
      Resolved w searched (.shared p)
  | absent (found : Found w searched none) (user : shared? w = none) : Resolved w searched .absent

/-- The target's own directory: the target itself, or the directory that a file lies in. -/
def ownDirectory? (w : Workspace) (target : FilePath) : Option (List Text) :=
  (w.names? target).map fun names => if w.hasFile target then names.dropLast else names

/-- The target is a file whose path is its name. -/
def IsBare (w : Workspace) (target : FilePath) : Prop :=
  w.hasFile target = true ∧ '/' ∉ target.text

/-! ## One directory -/

/-- From a directory its entries are reached. -/
def Leads (w : Workspace) (p : FilePath) (dir : List Text) : Prop :=
  ∀ name, IsName name →
    w.names? (p.join ⟨name⟩) = (w.tree.below? (dir ++ [name])).map fun _ => dir ++ [name]

/-- A path that is not empty is looked up from the current directory. -/
theorem names?_eq (hne : p.text ≠ []) : w.names? p = w.tree.names? (w.current.join p) := by
  rw [Workspace.names?, if_neg (by simpa using hne)]

/-- A directory that is there is a place to reach its entries from. -/
theorem leads_ofNames (hnames : ∀ n ∈ dir, IsName n) {node : FileTree}
    (hnode : w.tree.below? dir = some node) : Leads w (ofNames dir) dir := by
  intro name hname
  have hjoin : (ofNames dir).join ⟨name⟩ = ⟨front (ofNames dir).text ++ name⟩ :=
    FilePath.join_eq (FilePath.isBody_of_isName hname).isAbsolute_eq_false
  have habsolute : w.current.join ⟨front (ofNames dir).text ++ name⟩ =
      ⟨front (ofNames dir).text ++ name⟩ := by
    simp [FilePath.join, FilePath.isAbsolute, ofNames]
  have hfold : (bodyComponents (ofNames dir).text).foldlM w.tree.step? [] = some dir := by
    rw [FilePath.bodyComponents_ofNames hnames]
    exact FileTree.foldlM_map_name hnode
  rw [hjoin, names?_eq (by simp [FilePath.ne_nil_of_isName hname]), habsolute]
  exact FileTree.names?_name hname hfold

/-- From the empty path the entries of the current directory are reached. -/
theorem leads_nil (hcurrent : (bodyComponents w.current.text).foldlM w.tree.step? [] = some dir) :
    Leads w ⟨[]⟩ dir := by
  intro name hname
  have hbody := FilePath.isBody_of_isName hname
  rw [FilePath.nil_join hbody, names?_eq (FilePath.ne_nil_of_isName hname),
    FilePath.join_eq hbody.isAbsolute_eq_false]
  exact FileTree.names?_name hname hcurrent

/-- The file names of configurations are names. -/
theorem isName_of_mem_projectNames : ∀ name ∈ projectNames, IsName name.toList := by
  decide

/-- A configuration file is found in a directory if the directory has it. -/
theorem hasFile_of_leads (h : Leads w p dir) (hname : name ∈ projectNames) :
    w.hasFile (p.join (.ofString name)) =
      (w.tree.below? (dir ++ [name.toList])).any FileTree.isFile := by
  rw [Workspace.hasFile, Workspace.at?, FilePath.ofString,
    h name.toList (isName_of_mem_projectNames name hname)]
  cases hnode : w.tree.below? (dir ++ [name.toList]) with
  | none => rfl
  | some node => simp [hnode]

/-- What is found in a list comes before whatever else would do. -/
theorem idxOf_le_of_find? {α : Type} [DecidableEq α] {l : List α} {q : α → Bool} {a b : α}
    (h : l.find? q = some a) (hb : q b = true) : l.idxOf a ≤ l.idxOf b := by
  induction l with
  | nil => cases h
  | cons x l ih =>
    by_cases hx : q x = true
    · rw [List.find?_cons_of_pos hx] at h
      rw [Option.some.inj h, List.idxOf_cons_self]
      exact Nat.zero_le _
    · rw [List.find?_cons_of_neg hx] at h
      have ha : x ≠ a := by
        rintro rfl
        exact hx (List.find?_some h)
      have hb' : x ≠ b := by
        rintro rfl
        exact hx hb
      rw [List.idxOf_cons_ne l ha, List.idxOf_cons_ne l hb']
      exact Nat.succ_le_succ (ih h)

/-- Of the files of one directory the first in the list of names is found. -/
theorem found_inDirectory? (h : Leads w p dir) : Found w (· = dir) (inDirectory? w p) := by
  rw [inDirectory?, List.find?_map]
  cases hfind : projectNames.find? (w.hasFile ∘ fun name => p.join (.ofString name)) with
  | none =>
    refine .nothing fun dir' name hdir hconfig => ?_
    subst hdir
    refine List.find?_eq_none.1 hfind name hconfig.listed ?_
    rw [Function.comp_apply, hasFile_of_leads h hconfig.listed]
    exact hconfig.file
  | some name =>
    have hlisted := List.mem_of_find?_eq_some hfind
    have hfile := List.find?_some hfind
    rw [Function.comp_apply, hasFile_of_leads h hlisted] at hfile
    obtain ⟨node, hnode, -⟩ := (Option.any_eq_true _ _).1 hfile
    have hchosen : Chosen w.tree (· = dir) dir name := by
      refine ⟨rfl, ⟨hlisted, hfile⟩, ?_, fun name' hconfig => ?_⟩
      · rintro dir' name' rfl -
        exact Nat.le_refl _
      · refine idxOf_le_of_find? hfind ?_
        rw [Function.comp_apply, hasFile_of_leads h hconfig.listed]
        exact hconfig.file
    exact .file hchosen
      ((h name.toList (isName_of_mem_projectNames name hlisted)).trans (by rw [hnode]; rfl))

/-! ## Directory by directory -/

/-- What a directory lacks is looked for in those around it. -/
theorem Found.around {found around : Option FilePath} {name : Text}
    (hinner : Found w (· = dir ++ [name]) found) (houter : Found w (· <+: dir) around) :
    Found w (· <+: dir ++ [name]) (found.or around) := by
  cases hinner with
  | file chosen leads =>
    obtain rfl := chosen.within
    refine .file ⟨List.prefix_refl _, chosen.config, ?_, chosen.first⟩ leads
    exact fun dir' _ hdir _ => hdir.length_le
  | nothing empty =>
    rw [Option.none_or]
    cases houter with
    | file chosen leads =>
      refine .file ⟨chosen.within.trans (List.prefix_append _ _), chosen.config, ?_, chosen.first⟩ leads
      intro dir' name' hdir hconfig
      rcases List.prefix_concat_iff.1 hdir with heq | hdir
      · exact absurd hconfig (empty dir' name' heq)
      · exact chosen.nearest dir' name' hdir hconfig
    | nothing empty' =>
      refine .nothing fun dir' name' hdir => ?_
      rcases List.prefix_concat_iff.1 hdir with heq | hdir
      · exact empty dir' name' heq
      · exact empty' dir' name' hdir

/-- The search from a directory upwards. -/
theorem nearest?_ofNames (hnames : ∀ n ∈ dir, IsName n) {node : FileTree}
    (hnode : w.tree.below? dir = some node) :
    Found w (· <+: dir) (nearest? w (ofNames dir)) := by
  induction dir using List.reverseRecOn generalizing node with
  | nil =>
    have hroot : (· <+: ([] : List Text)) = (· = []) := funext fun dir => propext List.prefix_nil
    rw [hroot, nearest?, FilePath.ancestors_ofNames_nil, List.findSome?_singleton]
    exact found_inDirectory? (leads_ofNames hnames hnode)
  | append_singleton dir name ih =>
    obtain ⟨directory, hdirectory, -⟩ := FileTree.exists_directory_of_below? hnode
    have hname := hnames name (List.mem_append_right _ List.mem_cons_self)
    have hrest : ∀ n ∈ dir, IsName n := fun n hn => hnames n (List.mem_append_left _ hn)
    have hsplit : nearest? w (ofNames (dir ++ [name])) =
        (inDirectory? w (ofNames (dir ++ [name]))).or (nearest? w (ofNames dir)) := by
      rw [nearest?, FilePath.ancestors_ofNames_append hrest hname, List.findSome?_cons]
      cases inDirectory? w (ofNames (dir ++ [name])) <;> rfl
    rw [hsplit]
    exact (found_inDirectory? (leads_ofNames hnames hnode)).around (ih hrest hdirectory)

/-! ## The target -/

/-- An empty path leads nowhere. -/
theorem text_ne_nil_of_names? {names : List Text} (h : w.names? p = some names) : p.text ≠ [] := by
  intro hnil
  simp [Workspace.names?, hnil] at h

/-- Where a path leads there are only names on the way, and a file or a directory at the end. -/
theorem exists_of_names? {names : List Text} (h : w.names? p = some names) :
    (∀ n ∈ names, IsName n) ∧ ∃ node, w.tree.below? names = some node ∧
      w.hasFile p = node.isFile := by
  have hnames := h
  rw [names?_eq (text_ne_nil_of_names? h)] at hnames
  obtain ⟨-, hfold, node, hnode, -⟩ := FileTree.names?_eq_some_iff.1 hnames
  refine ⟨FileTree.isName_of_foldlM (fun n => FilePath.isName_of_mem_bodyComponents) (by simp) hfold,
    node, hnode, ?_⟩
  rw [Workspace.hasFile, Workspace.at?, h, Option.bind_some, hnode, Option.any_some]

/-- A path to a file leads to what is no directory. -/
theorem exists_file_of_names? {names : List Text} (h : w.names? p = some names)
    (hfile : w.hasFile p = true) :
    ∃ node, w.tree.below? names = some node ∧ node.isDirectory = false := by
  obtain ⟨-, node, hnode, hkind⟩ := exists_of_names? h
  rw [hfile, FileTree.isFile, eq_comm, Bool.not_eq_true'] at hkind
  exact ⟨node, hnode, hkind⟩

/-- What is left of a file's path with a slash leads to the file's directory. -/
theorem names?_parent? {names : List Text} (h : w.names? target = some names)
    (hfile : w.hasFile target = true) (hslash : '/' ∈ target.text) :
    ∃ parent, target.parent? = some parent ∧ w.names? parent = some names.dropLast ∧
      w.hasFile parent = false := by
  obtain ⟨node, hnode, hkind⟩ := exists_file_of_names? h hfile
  obtain ⟨before, name, htext, hlast, hjoin⟩ := FilePath.exists_join_eq w.current hslash
  rw [names?_eq (text_ne_nil_of_names? h), hjoin] at h
  obtain ⟨hname, own, hown, rfl⟩ := FileTree.exists_of_isFile hlast h hnode hkind
  obtain ⟨directory, hdirectory, hkind'⟩ := FileTree.exists_directory_of_below? hnode
  obtain ⟨parent, hparent, hne', habsolute, hcomponents⟩ := FilePath.exists_parent? before hname
  have hleads : w.names? parent = some own := by
    rw [names?_eq hne']
    refine FileTree.names?_eq_some_iff.2 ⟨FilePath.join_ne_nil _ hne', ?_, directory, hdirectory,
      fun _ => hkind'⟩
    have hstart : FilePath.isAbsolute ⟨before ++ ['/']⟩ =
        FilePath.isAbsolute ⟨before ++ '/' :: name⟩ := by
      cases before <;> rfl
    rw [FilePath.bodyComponents_join, FilePath.bodyComponents_append_slash, hstart] at hown
    rw [FilePath.bodyComponents_join, habsolute, hcomponents, hown]
  obtain ⟨text⟩ := target
  obtain rfl : text = before ++ '/' :: name := htext
  rw [List.dropLast_concat]
  refine ⟨parent, hparent, hleads, ?_⟩
  rw [Workspace.hasFile, Workspace.at?, hleads, Option.bind_some, hdirectory, Option.any_some,
    FileTree.isFile, hkind']
  rfl

/-- Nothing is left of a bare file name, and the file lies in the current directory. -/
theorem parent?_of_bare {names : List Text} (h : w.names? target = some names)
    (hfile : w.hasFile target = true) (hslash : '/' ∉ target.text) :
    target.parent? = some ⟨[]⟩ ∧
      (bodyComponents w.current.text).foldlM w.tree.step? [] = some names.dropLast := by
  have habsolute : target.isAbsolute = false := by
    rw [FilePath.isAbsolute, beq_eq_false_iff_ne]
    exact fun hhead => hslash (List.mem_of_head? hhead)
  obtain ⟨node, hnode, hkind⟩ := exists_file_of_names? h hfile
  rw [names?_eq (text_ne_nil_of_names? h), FilePath.join_eq habsolute] at h
  obtain ⟨hname, own, hown, rfl⟩ := FileTree.exists_of_isFile hslash h hnode hkind
  rw [List.dropLast_concat]
  exact ⟨FilePath.parent?_eq_start hname
    (FilePath.splitStart_of_isBody (FilePath.isBody_of_isName hname)), hown⟩

/-- The search starts at the target's own directory, unless the target is a bare file name. -/
theorem names?_startOf (h : ownDirectory? w target = some own) (hbare : ¬IsBare w target) :
    w.names? (startOf w target) = some own ∧ w.hasFile (startOf w target) = false := by
  obtain ⟨names, hnames, hown⟩ := Option.map_eq_some_iff.1 h
  unfold startOf
  cases hfile : w.hasFile target with
  | false =>
    rw [hfile, if_neg Bool.false_ne_true] at hown
    rw [if_neg Bool.false_ne_true, hnames, hown]
    exact ⟨rfl, hfile⟩
  | true =>
    have hslash : '/' ∈ target.text := by
      by_contra hslash
      exact hbare ⟨hfile, hslash⟩
    obtain ⟨parent, hparent, hleads, hdirectory⟩ := names?_parent? hnames hfile hslash
    rw [hfile, if_pos rfl] at hown
    rw [if_pos rfl, hparent, Option.getD_some, hleads, hown]
    exact ⟨rfl, hdirectory⟩

/-- For a bare file name it starts nowhere, but the current directory is the target's own. -/
theorem startOf_of_isBare (h : ownDirectory? w target = some own) (hbare : IsBare w target) :
    startOf w target = ⟨[]⟩ ∧
      (bodyComponents w.current.text).foldlM w.tree.step? [] = some own := by
  obtain ⟨names, hnames, hown⟩ := Option.map_eq_some_iff.1 h
  obtain ⟨hfile, hslash⟩ := hbare
  obtain ⟨hparent, hcurrent⟩ := parent?_of_bare hnames hfile hslash
  rw [hfile, if_pos rfl] at hown
  rw [startOf, if_pos hfile, hparent, ← hown]
  exact ⟨rfl, hcurrent⟩

/-- Where the configuration comes from follows from what the search finds. -/
theorem Found.resolved {searched : List Text → Prop} {start : FilePath}
    (h : Found w searched (nearest? w ((w.resolve? start).getD start))) :
    Resolved w searched (find w start none) := by
  unfold find
  dsimp only
  generalize nearest? w ((w.resolve? start).getD start) = found at h
  cases found with
  | some p => exact .project h
  | none =>
    cases hshared : shared? w with
    | some p => exact .shared h hshared
    | none => exact .absent h hshared

/-- A path that leads somewhere is resolved to the path from the root. -/
theorem resolve?_eq (h : w.names? p = some own) : (w.resolve? p).getD p = ofNames own := by
  rw [Workspace.resolve?, h, Option.map_some, Option.getD_some]

/-- **The nearest configuration of the project is found**, and checking a file finds the same one as checking
its directory, unless the file is given by its bare name: then only the current directory is searched. -/
theorem resolved_find (h : ownDirectory? w target = some own) :
    (¬IsBare w target → Resolved w (· <+: own) (find w (startOf w target) none) ∧
      ∀ directory, w.names? directory = some own →
        find w (startOf w target) none = find w (startOf w directory) none) ∧
    (IsBare w target → Resolved w (· = own) (find w (startOf w target) none)) := by
  refine ⟨fun hbare => ?_, fun hbare => ?_⟩
  · obtain ⟨hstart, hkind⟩ := names?_startOf h hbare
    obtain ⟨hnames, node, hnode, hfile⟩ := exists_of_names? hstart
    constructor
    · refine Found.resolved ?_
      rw [resolve?_eq hstart]
      exact nearest?_ofNames hnames hnode
    · intro directory hdirectory
      obtain ⟨-, node', hnode', hfile'⟩ := exists_of_names? hdirectory
      obtain rfl := Option.some.inj (hnode.symm.trans hnode')
      have hplain : startOf w directory = directory := by
        rw [startOf, if_neg (by rw [hfile', ← hfile, hkind]; exact Bool.false_ne_true)]
      rw [hplain, find, find, resolve?_eq hstart, resolve?_eq hdirectory]
  · obtain ⟨hstart, hcurrent⟩ := startOf_of_isBare h hbare
    have hnowhere : w.resolve? ⟨[]⟩ = none := rfl
    have hancestors : FilePath.ancestors ⟨[]⟩ = [⟨[]⟩] := by
      rw [FilePath.ancestors]
      rfl
    refine Found.resolved ?_
    rw [hstart, hnowhere, Option.getD_none, nearest?, hancestors, List.findSome?_singleton]
    exact found_inDirectory? (leads_nil hcurrent)

/-- A project with two configuration files, seen from its only subdirectory. -/
def nestedProject : Workspace where
  tree := .directory [("p".toList, .directory
    [("php-standards.toml.dist".toList, .file []), (".php-standards.toml".toList, .file []),
      ("src".toList, .directory [("a.php".toList, .file [])])])]
  current := .ofString "/p/src"

/-- For a file that is given with a dot in front, the first of the files in the directory above is taken. -/
theorem resolved_find_nested :
    ownDirectory? nestedProject (.ofString "./a.php") = some ["p".toList, "src".toList] ∧
      ¬IsBare nestedProject (.ofString "./a.php") ∧
      Resolved nestedProject (· <+: ["p".toList, "src".toList])
        (find nestedProject (startOf nestedProject (.ofString "./a.php")) none) ∧
      find nestedProject (startOf nestedProject (.ofString "./a.php")) none =
        .project (.ofString "/p/.php-standards.toml") := by
  have hown : ownDirectory? nestedProject (.ofString "./a.php") = some ["p".toList, "src".toList] := by
    decide +kernel
  have hbare : ¬IsBare nestedProject (.ofString "./a.php") := fun h => h.2 (by decide)
  exact ⟨hown, hbare, ((resolved_find hown).1 hbare).1, by decide +kernel⟩

/-- The same file by its bare name has no configuration, while its directory has one. -/
theorem find_bare_name :
    ownDirectory? nestedProject (.ofString "a.php") = some ["p".toList, "src".toList] ∧
      nestedProject.names? (.ofString ".") = some ["p".toList, "src".toList] ∧
      ConfigAt nestedProject.tree ["p".toList] ".php-standards.toml" ∧
      find nestedProject (startOf nestedProject (.ofString "a.php")) none = .absent ∧
      find nestedProject (startOf nestedProject (.ofString ".")) none =
        .project (.ofString "/p/.php-standards.toml") :=
  ⟨by decide +kernel, by decide +kernel, ⟨by decide, by decide +kernel⟩, by decide +kernel,
    by decide +kernel⟩

end ConfigSource

end PhpLint

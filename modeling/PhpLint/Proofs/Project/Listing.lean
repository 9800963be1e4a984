import PhpLint.Proofs.Path.Join

/-!
# The files of a directory, wherever it stands

A walk starts at a root and goes down.  What it finds depends on what is below the root, and on the
ignore files in the directories around it.  Where those hold none, the files are those of the directory
by itself, each of them with the root in front of its path (`visibleFiles_placed`).

The induction is on the tree; on the way down the levels of ignore files pile up in front of those that
were there before, and the latter have no rules.
-/

namespace PhpLint

/-- The entries of all directories of a tree have names. -/
inductive FileTree.Named : FileTree → Prop
  | file (bytes : List UInt8) : Named (.file bytes)
  | directory {entries : List (Text × FileTree)} (hnames : ∀ e ∈ entries, Component.IsName e.1)
      (hnodes : ∀ e ∈ entries, Named e.2) : Named (.directory entries)

/-- The file with a base in front of its path. -/
def SourceFile.under (base : FilePath) (f : SourceFile) : SourceFile :=
  { f with path := base.join f.path }

namespace Ignore

/-! ## Levels without rules -/

/-- The ignore files of a level say nothing. -/
structure Level.Silent (l : Level) : Prop where
  plain : l.plain = []
  versioned : l.versioned = []
  repository : l.repository = []

namespace Level

variable {inner outer : List Level} {name : Text} {isDirectory : Bool}

theorem Silent.enter {l : Level} (h : l.Silent) (name : Text) : (l.enter name).Silent :=
  ⟨h.plain, h.versioned, h.repository⟩

/-- Levels without rules of a sort do not take part in their verdict. -/
theorem verdictOf?_append {sort : Level → List Rule} (h : ∀ l ∈ outer, sort l = []) :
    verdictOf? (inner ++ outer) sort name isDirectory = verdictOf? inner sort name isDirectory := by
  have hnone : verdictOf? outer sort name isDirectory = none := by
    refine List.findSome?_eq_none_iff.2 fun l hl => ?_
    rw [h l hl]
    rfl
  unfold verdictOf? at hnone ⊢
  rw [List.findSome?_append, hnone, Option.or_none]

/-- Levels without rules ignore nothing. -/
theorem ignores_append (h : ∀ l ∈ outer, l.Silent) :
    ignores (inner ++ outer) name isDirectory = ignores inner name isDirectory := by
  unfold ignores
  rw [verdictOf?_append fun l hl => (h l hl).plain, verdictOf?_append fun l hl => (h l hl).versioned,
    verdictOf?_append fun l hl => (h l hl).repository]

end Level

namespace Files

/-- Where a directory may hold rules for what is below it. -/
def places : List (List Text) :=
  [[".ignore".toList], [".gitignore".toList], [".git".toList, "info".toList, "exclude".toList]]

/-- There is no ignore file in the directory. -/
def noneIn (directory : FileTree) : Bool :=
  places.all fun names => ((directory.below? names).bind FileTree.content?).isNone

/-- A directory without ignore files has no rules. -/
theorem ofDirectory_of_noneIn {directory : FileTree} (h : noneIn directory = true) (heeded : Bool) :
    ofDirectory heeded directory = ⟨[], [], []⟩ := by
  have hlines (names : List Text) (hnames : names ∈ places) : linesAt directory names = [] := by
    have hnone := List.all_eq_true.1 h names hnames
    rw [linesAt, Option.isNone_iff_eq_none.1 hnone]
    rfl
  have hplain := hlines [".ignore".toList] (by simp [places])
  have hversioned := hlines [".gitignore".toList] (by simp [places])
  have hrepository := hlines [".git".toList, "info".toList, "exclude".toList] (by simp [places])
  simp only [ofDirectory, hplain, hversioned, hrepository, ite_self]

end Files

end Ignore

namespace Discovery

open Component (IsName)
open FilePath (Inside)
open Ignore (Level Files)

variable {heeded : Bool} {R p : FilePath} {node : FileTree} {entries : List (Text × FileTree)}
  {levels inner outer : List Level}

/-! ## Down the tree -/

/-- What the entries of a directory are called below a path is written as a walk writes it. -/
def Leads (p : FilePath) : Prop := ∀ name, IsName name → Inside (p.join ⟨name⟩)

/-- An entry of the directory that a walk starts at is written as the walk writes it. -/
theorem leads_nil : Leads ⟨[]⟩ := by
  intro name hname
  rw [FilePath.nil_join (FilePath.isBody_of_isName hname)]
  exact FilePath.inside_of_isName hname

/-- The files in a directory are written as a walk writes them, when those of its entries are. -/
theorem filesIn_inside (hp : Leads p) (hnames : ∀ e ∈ entries, IsName e.1)
    (hnodes : ∀ e ∈ entries, ∀ levels q, Inside q →
      ∀ f ∈ filesAt heeded levels q e.2, Inside f.path) :
    ∀ f ∈ filesIn heeded levels p entries, Inside f.path := by
  induction entries with
  | nil => simp [filesIn]
  | cons e rest ih =>
    intro f hf
    rw [filesIn, List.mem_append] at hf
    rcases hf with hf | hf
    · split at hf
      · cases hf
      · exact hnodes e List.mem_cons_self _ _ (hp e.1 (hnames e List.mem_cons_self)) f hf
    · exact ih (fun e he => hnames e (List.mem_cons_of_mem _ he))
        (fun e he => hnodes e (List.mem_cons_of_mem _ he)) f hf

/-- The files below a path are written as a walk writes them. -/
theorem filesAt_inside (hnode : node.Named) :
    ∀ levels p, Inside p → ∀ f ∈ filesAt heeded levels p node, Inside f.path := by
  induction hnode with
  | file bytes =>
    intro levels p hp f hf
    rw [filesAt, List.mem_singleton] at hf
    rwa [hf]
  | directory hnames hnodes ih =>
    intro levels p hp
    rw [filesAt]
    exact filesIn_inside (fun name hname => hp.join hname) hnames ih

/-- The files in a directory, given those of its entries. -/
theorem filesIn_join {path : FilePath} (houter : ∀ l ∈ outer, l.Silent)
    (hpath : ∀ name, IsName name → path.join ⟨name⟩ = R.join (p.join ⟨name⟩)) (hp : Leads p)
    (hnames : ∀ e ∈ entries, IsName e.1)
    (hnodes : ∀ e ∈ entries, ∀ inner outer q, (∀ l ∈ outer, l.Silent) → Inside q →
      filesAt heeded (inner ++ outer) (R.join q) e.2 =
        (filesAt heeded inner q e.2).map (·.under R)) :
    filesIn heeded (inner ++ outer) path entries =
      (filesIn heeded inner p entries).map (·.under R) := by
  induction entries with
  | nil => simp [filesIn]
  | cons e rest ih =>
    have hname := hnames e List.mem_cons_self
    have hentry := hnodes e List.mem_cons_self (inner.map (·.enter e.1)) (outer.map (·.enter e.1))
      (p.join ⟨e.1⟩) (by
        intro l hl
        obtain ⟨above, habove, rfl⟩ := List.mem_map.1 hl
        exact (houter above habove).enter e.1) (hp e.1 hname)
    have hrest := ih (fun e he => hnames e (List.mem_cons_of_mem _ he))
      (fun e he => hnodes e (List.mem_cons_of_mem _ he))
    rw [filesIn, filesIn, List.map_append, Level.ignores_append houter, List.map_append,
      hpath e.1 hname, hentry, hrest]
    split <;> rfl

/-- A base in front of the path, and levels without rules around it, put the base in front of the files.
-/
theorem filesAt_join (hnode : node.Named) :
    ∀ inner outer p, (∀ l ∈ outer, l.Silent) → Inside p →
      filesAt heeded (inner ++ outer) (R.join p) node =
        (filesAt heeded inner p node).map (·.under R) := by
  induction hnode with
  | file bytes =>
    intro inner outer p houter hp
    simp [filesAt, SourceFile.under]
  | directory hnames hnodes ih =>
    intro inner outer p houter hp
    rw [filesAt, filesAt, ← List.cons_append]
    refine filesIn_join houter (fun name hname => ?_) (fun name hname => hp.join hname) hnames ih
    exact FilePath.join_assoc hp.body (FilePath.isBody_of_isName hname)

/-! ## From the root -/

/-- The node stands at an absolute path, and no directory around it holds ignore files. -/
structure Placed (tree : FileTree) (R : FilePath) (node : FileTree) : Prop where
  absolute : R.isAbsolute = true
  stands : ∃ names, tree.names? R = some names ∧ tree.below? names = some node ∧
    ∀ n < names.length, (tree.below? (names.take n)).all Files.noneIn = true

/-- The files of a directory by itself. -/
def filesOf (heeded : Bool) (node : FileTree) : List SourceFile := filesAt heeded [] ⟨[]⟩ node

/-- The files of a directory by itself are written as a walk writes them. -/
theorem filesOf_inside (hnode : node.Named) (hdirectory : node.isDirectory = true) :
    ∀ f ∈ filesOf heeded node, Inside f.path := by
  cases hnode with
  | file bytes => simp [FileTree.isDirectory] at hdirectory
  | directory hnames hnodes =>
    rw [filesOf, filesAt]
    exact filesIn_inside leads_nil hnames fun e he => filesAt_inside (hnodes e he)

/-- **The files below a root are those of its directory, with the root in front.** -/
theorem visibleFiles_placed {tree : FileTree} (hplaced : Placed tree R node) (hnode : node.Named)
    (hdirectory : node.isDirectory = true) :
    visibleFiles heeded tree R = .ok ((filesOf heeded node).map (·.under R)) := by
  obtain ⟨names, hnames, hbelow, haround⟩ := hplaced.stands
  have houter : ∀ around ∈ outerFiles heeded tree names, around.1 = ⟨[], [], []⟩ := by
    intro around haround'
    obtain ⟨n, hn, hfound⟩ := List.mem_filterMap.1 haround'
    obtain ⟨directory, hdirectory, rfl⟩ := Option.map_eq_some_iff.1 hfound
    have hlt : n < names.length := by simpa using hn
    have hnone := haround n hlt
    rw [hdirectory] at hnone
    exact Files.ofDirectory_of_noneIn hnone heeded
  have hwell : (outerFiles heeded tree names).any (·.1.isMalformed) = false := by
    rw [List.any_eq_false]
    intro around haround'
    rw [houter around haround']
    simp [Files.isMalformed]
  have hsilent : ∀ l ∈ (outerFiles heeded tree names).map fun around =>
      Level.ofFiles around.1 around.2, l.Silent := by
    intro l hl
    obtain ⟨⟨f, trail⟩, hmem, rfl⟩ := List.mem_map.1 hl
    obtain rfl : f = ⟨[], [], []⟩ := houter (f, trail) hmem
    exact ⟨rfl, rfl, rfl⟩
  cases hnode with
  | file bytes => simp [FileTree.isDirectory] at hdirectory
  | directory hentries hnodes =>
    unfold visibleFiles
    simp only [hnames, hbelow, hwell, Bool.false_eq_true, if_false]
    rw [filesAt, filesOf, filesAt, ← List.singleton_append]
    refine congrArg Except.ok (filesIn_join hsilent (fun name hname => ?_) leads_nil hentries
      fun e he => filesAt_join (hnodes e he))
    rw [FilePath.nil_join (FilePath.isBody_of_isName hname)]

end Discovery

end PhpLint

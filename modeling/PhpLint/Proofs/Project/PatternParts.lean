import PhpLint.Proofs.Lexing.Layout
import PhpLint.Proofs.Project.Exclusion

/-!
# Exclusions that are searched for as parts

Beside what it stands for as a glob, an exclusion covers every path that its pattern, taken without the
double stars, is a part of.  So a plain `build` covers a file below `rebuild`, which no glob of that text
stands for.

A pattern is **open** when it starts and ends with a star and holds no class.  Such a glob stands for its
own text without the double stars, whatever stands in front of it and behind it (`accepts_of_isOpen`), and
the search adds nothing: an open exclusion covers what it stands for (`covers_iff`).
-/

namespace PhpLint

open FilePath (bodyComponents)

namespace Glob

variable {parts : List Part} {t behind : Text}

/-! ## Stars at the two ends -/

/-- What a test finds in a text it finds behind more text. -/
theorem anySuffix_append {test : Text → Bool} (front : Text) (h : anySuffix test t = true) :
    anySuffix test (front ++ t) = true := by
  induction front with
  | nil => exact h
  | cons c front ih => rw [List.cons_append, anySuffix, ih, Bool.or_true]

/-- A test of the whole text is one of its ends. -/
theorem anySuffix_of_test {test : Text → Bool} (h : test t = true) : anySuffix test t = true := by
  cases t with
  | nil => exact h
  | cons c t => rw [anySuffix, h, Bool.true_or]

/-- What is tested behind a slash is tested behind one of the slashes. -/
theorem anyComponent_of_test {test : Text → Bool} (front : Text) (h : test t = true) :
    anyComponent test (front ++ '/' :: t) = true := by
  induction front with
  | nil => simp [anyComponent, h]
  | cons c front ih => rw [List.cons_append, anyComponent, ih, Bool.or_true]

/-- A test that some end of the text passes is passed by nothing or by what stands behind a slash. -/
theorem exists_of_anyComponent {test : Text → Bool} (h : anyComponent test t = true) :
    test [] = true ∨ ∃ front rest, t = front ++ '/' :: rest ∧ test rest = true := by
  induction t with
  | nil => exact .inl h
  | cons c t ih =>
    rw [anyComponent, Bool.or_eq_true, Bool.and_eq_true, beq_iff_eq] at h
    rcases h with ⟨rfl, h⟩ | h
    · exact .inr ⟨[], t, rfl, h⟩
    · refine (ih h).imp_right fun hparts => ?_
      obtain ⟨front, rest, rfl, hrest⟩ := hparts
      exact ⟨c :: front, rest, rfl, hrest⟩

/-- Two stars at the end stand for all that is left. -/
theorem matchesText_components (t : Text) : matchesText [.components] t = true := by
  have hend : anyComponent (matchesText []) t = true := by
    induction t with
    | nil => rfl
    | cons c t ih => rw [anyComponent, ih, Bool.or_true]
  rw [matchesText, hend, Bool.or_true]

/-- One star at the end stands for all that is left. -/
theorem matchesText_star (t : Text) : matchesText [.star] t = true := by
  have hend : anySuffix (matchesText []) (t ++ []) = true := anySuffix_append t rfl
  rwa [List.append_nil] at hend

/-- Behind a star that starts a pattern stands another one and then nothing or a slash, or it stands
alone. -/
theorem star_cases {position : Nat} {previous : Option Char}
    (h : partsFrom position previous ('*' :: t) = .ok parts) :
    (t = ['*'] ∧ parts = [.components]) ∨
      (∃ rest more, t = '*' :: '/' :: rest ∧ parts = .components :: more ∧
        partsFrom (position + 3) (some '/') rest = .ok more) ∨
      (t.head? ≠ some '*' ∧ ∃ more, parts = .star :: more ∧
        partsFrom (position + 1) (some '*') t = .ok more) := by
  rw [partsFrom.eq_def] at h
  split at h
  case h_4 heq =>
    obtain rfl := List.tail_eq_of_cons_eq heq
    split at h
    · exact .inl ⟨rfl, (Except.ok.inj h).symm⟩
    · cases h
  case h_5 c rest _ heq =>
    obtain rfl := List.tail_eq_of_cons_eq heq
    split at h
    · cases h
    · split at h
      · cases h
      · next hslash =>
        obtain rfl : c = '/' := not_not.1 hslash
        obtain ⟨more, hmore, rfl⟩ := exists_of_map_eq_ok h
        exact .inr (.inl ⟨rest, more, rfl, rfl, hmore⟩)
  case h_6 rest _ hboth htwo heq =>
    obtain rfl := List.tail_eq_of_cons_eq heq
    obtain ⟨more, hmore, rfl⟩ := exists_of_map_eq_ok h
    refine .inr (.inr ⟨fun hstar => ?_, more, rfl, hmore⟩)
    obtain ⟨rest, rfl⟩ := List.head?_eq_some_iff.1 hstar
    cases rest with
    | nil => exact hboth rfl
    | cons c rest => exact htwo c rest rfl
  case h_3 => cases h
  case h_8 hstar _ heq => exact absurd (List.head_eq_of_cons_eq heq).symm hstar
  all_goals next heq => cases heq

end Glob

namespace Exclusion

open Glob

variable {e : Glob} {exclusions : List Glob} {pattern behind : Text} {base p : FilePath}

/-- A character that starts no double star stays when they are left out. -/
theorem withoutStars_cons {c : Char} {t : Text} (h : c = '*' → t.head? ≠ some '*') :
    withoutStars (c :: t) = c :: withoutStars t := by
  rw [withoutStars]
  rintro rest hc rfl
  exact h hc rfl

/-- A last character that is not the first one stands in the rest. -/
theorem getLast?_of_cons {c d : Char} {t : Text} (h : (c :: t).getLast? = some d) (hc : c ≠ d) :
    t.getLast? = some d := by
  cases t with
  | nil => exact absurd (Option.some.inj h) hc
  | cons c' t => rwa [List.getLast?_cons_cons] at h

/-- A glob without classes whose pattern ends with a star stands for its own text without the double
stars, and for anything behind that. -/
theorem matchesText_withoutStars {position : Nat} {previous : Option Char} {t : Text}
    {parts : List Part} (h : partsFrom position previous t = .ok parts) (hclass : '[' ∉ t)
    (hlast : t.getLast? = some '*') (behind : Text) :
    matchesText parts (withoutStars t ++ behind) = true := by
  -- The induction follows the reading of the pattern; a reading that fails has no parts.
  fun_induction partsFrom position previous t generalizing parts with
  | case1 => cases hlast
  | case3 | case5 | case6 | case7 => cases h
  | case10 | case11 => exact absurd List.mem_cons_self hclass
  | case2 position previous rest ih =>
    obtain ⟨parts, hrest, rfl⟩ := exists_of_map_eq_ok h
    rw [withoutStars_cons (by simp), List.cons_append, matchesText,
      ih hrest (List.not_mem_of_not_mem_cons hclass) (getLast?_of_cons hlast (by decide))]
    · rfl
    · simp
    · simp
  | case4 =>
    cases h
    exact matchesText_components _
  | case8 position previous c rest hc hprevious hslash ih =>
    obtain ⟨parts, hrest, rfl⟩ := exists_of_map_eq_ok h
    obtain rfl : c = '/' := not_not.1 hslash
    have htext : withoutStars ('*' :: '*' :: '/' :: rest) = '/' :: withoutStars rest := by
      rw [withoutStars, withoutStars_cons (by simp)]
    have hmatch : matchesText parts (withoutStars rest ++ behind) = true := by
      refine ih hrest (fun hmem => hclass (by simp [hmem])) ?_
      rw [List.getLast?_cons_cons, List.getLast?_cons_cons] at hlast
      exact getLast?_of_cons hlast (by decide)
    rw [htext, matchesText, List.cons_append]
    exact Bool.or_eq_true_iff.2 (.inr (anyComponent_of_test [] hmatch))
  | case9 position previous rest hthree hboth htwo ih =>
    obtain ⟨parts, hrest, rfl⟩ := exists_of_map_eq_ok h
    cases rest with
    | nil =>
      rw [partsFrom] at hrest
      cases hrest
      exact matchesText_star _
    | cons d rest =>
      have hd : d ≠ '*' := by
        rintro rfl
        cases rest with
        | nil => exact hboth rfl
        | cons c rest => exact htwo c rest rfl
      rw [List.getLast?_cons_cons] at hlast
      rw [withoutStars_cons (by simp [hd]), matchesText, List.cons_append]
      exact anySuffix_append ['*'] (anySuffix_of_test
        (ih hrest (List.not_mem_of_not_mem_cons hclass) hlast))
  | case12 position previous c rest hquestion _ _ _ hstar hbracket ih =>
    obtain ⟨parts, hrest, rfl⟩ := exists_of_map_eq_ok h
    rw [withoutStars_cons (fun hc => absurd hc hstar), List.cons_append, matchesText,
      ih hrest (List.not_mem_of_not_mem_cons hclass) (getLast?_of_cons hlast hstar)]
    · simp [Part.accepts]
    · simp
    · simp

/-- The pattern starts and ends with a star and holds no class. -/
structure IsOpen (pattern : Text) : Prop where
  first : pattern.head? = some '*'
  last : pattern.getLast? = some '*'
  class_notMem : '[' ∉ pattern

instance (pattern : Text) : Decidable (IsOpen pattern) :=
  decidable_of_iff (pattern.head? = some '*' ∧ pattern.getLast? = some '*' ∧ '[' ∉ pattern)
    ⟨fun ⟨hfirst, hlast, hclass⟩ => ⟨hfirst, hlast, hclass⟩, fun h => ⟨h.first, h.last, h.class_notMem⟩⟩

/-- An open glob stands for every text that its own text without the double stars is a part of. -/
theorem accepts_of_isOpen (he : ofPattern pattern = .ok e) (h : IsOpen pattern) {t : Text}
    (hpart : withoutStars pattern <:+: t) : e.accepts t = true := by
  obtain ⟨parts, hparts, rfl⟩ := exists_of_map_eq_ok he
  obtain ⟨front, behind, rfl⟩ := hpart
  have hwhole := matchesText_withoutStars hparts h.class_notMem h.last behind
  have hclass := h.class_notMem
  have hlast := h.last
  obtain ⟨rest, rfl⟩ := List.head?_eq_some_iff.1 h.first
  unfold accepts
  rcases star_cases hparts with ⟨rfl, rfl⟩ | ⟨rest, more, rfl, rfl, hmore⟩ | ⟨-, more, rfl, -⟩
  · exact matchesText_components _
  · have hbehind : matchesText more (withoutStars rest ++ behind) = true := by
      refine matchesText_withoutStars hmore (fun hmem => hclass (by simp [hmem])) ?_ behind
      rw [List.getLast?_cons_cons, List.getLast?_cons_cons] at hlast
      exact getLast?_of_cons hlast (by decide)
    have htext : front ++ withoutStars ('*' :: '*' :: '/' :: rest) ++ behind =
        front ++ '/' :: (withoutStars rest ++ behind) := by
      rw [withoutStars, withoutStars_cons (by simp)]
      simp
    rw [htext, matchesText, anyComponent_of_test front hbehind, Bool.or_true]
  · rw [List.append_assoc]
    rw [matchesText] at hwhole ⊢
    exact anySuffix_append front hwhole

/-- An exclusion keeps the pattern that it was read from. -/
theorem pattern_of_ofPattern (he : ofPattern pattern = .ok e) : e.pattern = pattern := by
  obtain ⟨parts, -, rfl⟩ := exists_of_map_eq_ok he
  rfl

/-- Each exclusion of a list was read from its own pattern. -/
theorem ofPattern_of_mem {patterns : List Text} (h : patterns.mapM ofPattern = .ok exclusions)
    (he : e ∈ exclusions) : ofPattern e.pattern = .ok e := by
  induction patterns generalizing exclusions with
  | nil =>
    cases h
    cases he
  | cons pattern patterns ih =>
    rw [List.mapM_cons] at h
    cases hfirst : ofPattern pattern with
    | error fault =>
      rw [hfirst] at h
      cases h
    | ok first =>
      cases hrest : patterns.mapM ofPattern with
      | error fault =>
        rw [hfirst, hrest] at h
        cases h
      | ok rest =>
        rw [hfirst, hrest] at h
        cases h
        rcases List.mem_cons.1 he with rfl | he
        · rw [pattern_of_ofPattern hfirst, hfirst]
        · exact ih hrest he

/-! ## What is covered -/

/-- The exclusion stands for the path as a glob, absolute or below the base. -/
def Names (base : FilePath) (e : Glob) (p : FilePath) : Prop :=
  e.accepts p.text = true ∨ e.accepts (p.relativeTo base).text = true

instance (base : FilePath) (e : Glob) (p : FilePath) : Decidable (Names base e p) :=
  inferInstanceAs (Decidable (_ ∨ _))

/-- The exclusion is found as a part of the path although its pattern is not open. -/
structure Strays (e : Glob) (p : FilePath) : Prop where
  closed : ¬IsOpen e.pattern
  isPart : isPart (withoutStars e.pattern) = true
  found : Text.includes (withoutStars e.pattern) p.text = true

instance (e : Glob) (p : FilePath) : Decidable (Strays e p) :=
  decidable_of_iff (¬IsOpen e.pattern ∧ isPart (withoutStars e.pattern) = true ∧
      Text.includes (withoutStars e.pattern) p.text = true)
    ⟨fun ⟨hclosed, hpart, hfound⟩ => ⟨hclosed, hpart, hfound⟩, fun h => ⟨h.closed, h.isPart, h.found⟩⟩

theorem isInfix_of_includes {part t : Text} (h : Text.includes part t = true) : part <:+: t := by
  obtain ⟨⟨before, after⟩, hcut⟩ := Option.isSome_iff_exists.1 h
  exact ⟨before, after, (Text.cut_eq_some_append hcut).symm⟩

/-- For an open pattern the search finds nothing that the glob does not stand for. -/
theorem covers_iff (he : ofPattern e.pattern = .ok e) :
    covers base e p = true ↔ Names base e p ∨ Strays e p := by
  unfold covers
  rw [Bool.or_eq_true, Bool.or_eq_true, Bool.and_eq_true]
  refine or_congr_right' fun hnames =>
    ⟨fun hfound => ⟨fun hopen => ?_, hfound.1, hfound.2⟩, fun h => ⟨h.isPart, h.found⟩⟩
  exact hnames (.inl (accepts_of_isOpen he hopen (isInfix_of_includes hfound.2)))

/-! ## Directories of a name -/

/-- A name in the text of a path is one of its components. -/
theorem mem_components_of_mem_bodyComponents {component : Component}
    (h : component ∈ bodyComponents p.text) : component ∈ p.components := by
  rw [FilePath.components_eq]
  refine List.mem_append_right _ ?_
  unfold FilePath.startOf
  split
  · next rest htext => rwa [htext, FilePath.bodyComponents_slash_cons] at h
  · next htext =>
    rw [htext] at h
    exact h
  · next rest htext =>
    rw [htext, FilePath.bodyComponents_dot_cons] at h
    rwa [FilePath.bodyComponents_slash_cons]
  · exact h

/-- The components below a base are components of the path. -/
theorem mem_components_of_relativeTo {component : Component}
    (h : component ∈ (p.relativeTo base).components) : component ∈ p.components := by
  by_cases htake : p.components.take base.components.length = base.components
  · have hparts : p.components = base.components ++ p.components.drop base.components.length := by
      conv_lhs => rw [← List.take_append_drop base.components.length p.components, htake]
    rw [FilePath.components_relativeTo hparts] at h
    exact List.mem_of_mem_drop h
  · have hself : p.relativeTo base = p := by
      unfold FilePath.relativeTo FilePath.below?
      rw [if_neg htake]
      rfl
    rwa [hself] at h

/-- What the exclusion of all directories of a name stands for has a component of that name. -/
theorem mem_bodyComponents_of_accepts {name t : Text} (hname : Component.IsName name)
    (h : (everyDirectory name).accepts t = true) : .name name ∈ bodyComponents t := by
  have hmatch {u : Text}
      (hu : matchesText (name.map .literal ++ .literal '/' :: [.components]) u = true) :
      ∃ rest, u = name ++ '/' :: rest := by
    have hparts : name.map Part.literal ++ .literal '/' :: [.components] =
        (name ++ ['/']).map .literal ++ [.components] := by simp
    rw [hparts, matchesText_literals] at hu
    obtain ⟨rest, hrest, -⟩ := (Option.any_eq_true _ _).1 hu
    exact ⟨rest, by simpa using Text.stripStart_eq_some_iff.1 hrest⟩
  have hcomponents (rest : Text) : .name name ∈ bodyComponents (name ++ '/' :: rest) := by
    rw [FilePath.bodyComponents_append_cons, FilePath.bodyComponents_of_isName hname]
    exact List.mem_append_left _ List.mem_cons_self
  unfold accepts everyDirectory at h
  rw [matchesText, Bool.or_eq_true] at h
  rcases h with h | h
  · obtain ⟨rest, rfl⟩ := hmatch h
    exact hcomponents rest
  · rcases exists_of_anyComponent h with hend | ⟨front, u, rfl, hu⟩
    · obtain ⟨rest, hrest⟩ := hmatch hend
      exact absurd hrest (by simp)
    · obtain ⟨rest, rfl⟩ := hmatch hu
      rw [FilePath.bodyComponents_append_cons]
      exact List.mem_append_right _ (hcomponents rest)

/-- The exclusion of all directories of a plain name is open. -/
theorem isOpen_everyDirectory {name : Text} (hplain : IsPlain name) :
    IsOpen (everyDirectory name).pattern where
  first := rfl
  last := (List.getLast?_append_of_ne_nil _ (by decide)).trans rfl
  class_notMem := by
    have hname : '[' ∉ name := fun hmem => (hplain '[' hmem).2.2 rfl
    simp [everyDirectory, hname]

/-- A path that such an exclusion covers has a component of the name, and not just one that starts or
ends like it. -/
theorem mem_components_of_covers {name : Text} (hname : Component.IsName name)
    (hplain : IsPlain name) (h : covers base (everyDirectory name) p = true) :
    .name name ∈ p.components := by
  rcases (covers_iff (ofPattern_everyDirectory hplain)).1 h with (h | h) | h
  · exact mem_components_of_mem_bodyComponents (mem_bodyComponents_of_accepts hname h)
  · exact mem_components_of_relativeTo
      (mem_components_of_mem_bodyComponents (mem_bodyComponents_of_accepts hname h))
  · exact absurd (isOpen_everyDirectory hplain) h.closed

/-- **A path is excluded by what the patterns stand for as globs, and by nothing else unless a pattern
strays.**  A file in a directory whose name only starts or ends like that of an excluded one is none of
them. -/
theorem excluded_by_globs {patterns : List Text} (h : patterns.mapM ofPattern = .ok exclusions)
    (base p : FilePath) :
    (exclusions.any (covers base · p) = true ↔
      (∃ e ∈ exclusions, Names base e p) ∨ ∃ e ∈ exclusions, Strays e p) ∧
    ∀ names : List Text, (∀ name ∈ names, Component.IsName name ∧ IsPlain name) →
      exclusions = names.map everyDirectory → exclusions.any (covers base · p) = true →
        ∃ name ∈ names, .name name ∈ p.components := by
  constructor
  · rw [List.any_eq_true, ← exists_or]
    refine exists_congr fun e => ?_
    rw [← and_or_left]
    exact and_congr_right fun he => covers_iff (ofPattern_of_mem h he)
  · rintro names hnames rfl hcovers
    obtain ⟨e, he, hcovers⟩ := List.any_eq_true.1 hcovers
    obtain ⟨name, hname, rfl⟩ := List.mem_map.1 he
    exact ⟨name, hname, mem_components_of_covers (hnames name hname).1 (hnames name hname).2 hcovers⟩

/-- Two directories and the files below them, and a directory that ends like one of the two. -/
theorem excluded_by_globs_directories :
    ∃ exclusions, ["**/build/**".toList, "**/lib/**".toList].mapM ofPattern = .ok exclusions ∧
      exclusions.any (covers (.ofString "/p") · (.ofString "/p/rebuild/a.php")) = false ∧
      exclusions.any (covers (.ofString "/p") · (.ofString "/p/src/lib/a.php")) = true ∧
      (∃ e ∈ exclusions, Names (.ofString "/p") e (.ofString "/p/src/lib/a.php")) ∧
      ∃ name ∈ ["build".toList, "lib".toList],
        .name name ∈ (FilePath.ofString "/p/src/lib/a.php").components := by
  let names : List Text := ["build".toList, "lib".toList]
  have h : ["**/build/**".toList, "**/lib/**".toList].mapM ofPattern =
      .ok (names.map everyDirectory) := by decide +kernel
  have hcovered : (names.map everyDirectory).any
      (covers (.ofString "/p") · (.ofString "/p/src/lib/a.php")) = true := by decide +kernel
  have hstrays : ¬∃ e ∈ names.map everyDirectory, Strays e (.ofString "/p/src/lib/a.php") := by
    decide +kernel
  obtain ⟨hglobs, hdirectories⟩ := excluded_by_globs h (.ofString "/p") (.ofString "/p/src/lib/a.php")
  exact ⟨_, h, by decide +kernel, hcovered, (hglobs.1 hcovered).resolve_right hstrays,
    hdirectories names (by decide +kernel) rfl hcovered⟩

/-- A plain pattern covers a file in a directory that only starts like it, though it stands neither for
the file nor for any directory around it, absolute or below the base. -/
theorem excluded_by_start :
    ∃ exclusions, ["src/gen".toList].mapM ofPattern = .ok exclusions ∧
      exclusions.any (covers (.ofString "/p") · (.ofString "/p/src/generated/a.php")) = true ∧
      ∀ e ∈ exclusions, ∀ q ∈ FilePath.ancestors (.ofString "/p/src/generated/a.php"),
        ¬Names (.ofString "/p") e q := by
  exact ⟨[⟨"src/gen".toList, "src/gen".toList.map .literal⟩], by decide +kernel, by decide +kernel,
    by decide +kernel⟩

end Exclusion

end PhpLint

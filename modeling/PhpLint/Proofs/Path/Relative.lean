import PhpLint.FilePath
import PhpLint.Proofs.Ordering.StableSort
import PhpLint.Proofs.Text.Cut
import PhpLint.Proofs.Text.Lines

/-!
# Paths below a base

A path that starts with the components of a base is, below that base, what its further components
say (`components_relativeTo`), however many slashes and single dots stand between them.  So cutting
one base off several paths leaves their order as it is (`order_relativeTo`).

The components of a path behind its start are the pieces between its slashes, the empty ones and the
single dots left out.  Both ways of trimming a text take off only such pieces.
-/

namespace PhpLint

namespace FilePath

/-! ## The components of a body -/

/-- The components that the pieces of a text between its slashes mean. -/
def bodyComponents (t : Text) : List Component :=
  (Text.splitOn '/' t).filterMap Component.ofPiece?

/-- A slash parts the components of a path. -/
theorem bodyComponents_append_cons (s t : Text) :
    bodyComponents (s ++ '/' :: t) = bodyComponents s ++ bodyComponents t := by
  unfold bodyComponents
  rw [Text.splitOn_append_cons, List.filterMap_append]

/-- A text without slashes is one component, or says nothing. -/
theorem bodyComponents_of_not_mem {t : Text} (h : '/' ∉ t) :
    bodyComponents t = (Component.ofPiece? t).toList := by
  unfold bodyComponents
  rw [Text.splitOn_of_not_mem h]
  cases hpiece : Component.ofPiece? t <;> simp [hpiece]

@[simp] theorem firstPiece_slash (t : Text) : firstPiece ('/' :: t) = [] := by simp [firstPiece]

@[simp] theorem afterPiece_slash (t : Text) : afterPiece ('/' :: t) = t := by simp [afterPiece]

/-- A character that is no slash belongs to the first piece. -/
theorem firstPiece_cons {c : Char} (hc : c ≠ '/') (t : Text) :
    firstPiece (c :: t) = c :: firstPiece t := by
  simp [firstPiece, hc]

/-- Up to the first slash all belongs to the first piece. -/
theorem afterPiece_cons {c : Char} (hc : c ≠ '/') (t : Text) :
    afterPiece (c :: t) = afterPiece t := by
  simp [afterPiece, firstPiece_cons hc]

theorem slash_not_mem_firstPiece (t : Text) : '/' ∉ firstPiece t :=
  Text.notMem_takeWhile rfl t

/-- The components of a path are that of its first piece and those behind it. -/
theorem bodyComponents_eq (t : Text) :
    bodyComponents t =
      (Component.ofPiece? (firstPiece t)).toList ++ bodyComponents (afterPiece t) := by
  have hparts : t = firstPiece t ∧ afterPiece t = [] ∨
      t = firstPiece t ++ '/' :: afterPiece t := by
    induction t with
    | nil => exact .inl ⟨rfl, rfl⟩
    | cons c t ih =>
      by_cases hc : c = '/'
      · subst hc
        exact .inr (by simp)
      · rw [firstPiece_cons hc, afterPiece_cons hc]
        rcases ih with ⟨htext, hrest⟩ | htext
        · exact .inl ⟨congrArg (c :: ·) htext, hrest⟩
        · exact .inr (congrArg (c :: ·) htext)
  rw [← bodyComponents_of_not_mem (slash_not_mem_firstPiece t)]
  rcases hparts with ⟨htext, hrest⟩ | htext
  · rw [hrest, ← htext]
    simp [bodyComponents, Text.splitOn, Component.ofPiece?]
  · rw [← bodyComponents_append_cons, ← htext]

/-- The steps through a path lead over its components. -/
theorem map_bodySteps (t : Text) : (bodySteps t).map Prod.fst = bodyComponents t := by
  fun_induction bodySteps t with
  | case1 => rfl
  | case2 t hne component hpiece ih =>
    rw [bodyComponents_eq t, hpiece, List.map_cons, ih]
    rfl
  | case3 t hne hpiece ih =>
    rw [bodyComponents_eq t, hpiece, ih]
    rfl

/-- What follows a step of a body has the components behind that step. -/
theorem drop_bodySteps {t rest : Text} {component : Component} {k : Nat}
    (h : (bodySteps t)[k]? = some (component, rest)) :
    bodyComponents rest = (bodyComponents t).drop (k + 1) := by
  fun_induction bodySteps t generalizing k with
  | case1 => simp at h
  | case2 t hne first hpiece ih =>
    rw [bodyComponents_eq t, hpiece]
    cases k with
    | zero =>
      obtain ⟨-, rfl⟩ := Prod.mk.inj (Option.some.inj h)
      rfl
    | succ k => exact ih h
  | case3 t hne hpiece ih =>
    rw [bodyComponents_eq t, hpiece]
    exact ih h

/-! ## Trimming -/

/-- A slash in front says nothing. -/
theorem bodyComponents_slash_cons (t : Text) : bodyComponents ('/' :: t) = bodyComponents t :=
  bodyComponents_append_cons [] t

/-- A dot and a slash in front say nothing. -/
theorem bodyComponents_dot_cons (t : Text) :
    bodyComponents ('.' :: '/' :: t) = bodyComponents t :=
  bodyComponents_append_cons ['.'] t

/-- A slash at the end says nothing. -/
theorem bodyComponents_append_slash (t : Text) : bodyComponents (t ++ ['/']) = bodyComponents t :=
  (bodyComponents_append_cons t []).trans (List.append_nil _)

/-- A slash and a dot at the end say nothing. -/
theorem bodyComponents_append_dot (t : Text) :
    bodyComponents (t ++ ['/', '.']) = bodyComponents t :=
  (bodyComponents_append_cons t ['.']).trans (List.append_nil _)

/-- What is trimmed in front says nothing. -/
theorem bodyComponents_trimFront (t : Text) : bodyComponents (trimFront t) = bodyComponents t := by
  fun_induction trimFront t with
  | case1 rest ih => rw [ih, bodyComponents_slash_cons]
  | case2 => rfl
  | case3 rest ih => rw [ih, bodyComponents_dot_cons]
  | case4 t hslash hdot hstep => rfl

/-- What is trimmed at the end says nothing. -/
theorem bodyComponents_trimEnd (t : Text) : bodyComponents (trimEnd t) = bodyComponents t := by
  have hbackward (u : Text) : bodyComponents (trimBackward u).reverse = bodyComponents u.reverse := by
    fun_induction trimBackward u with
    | case1 rest ih => rw [ih, List.reverse_cons, bodyComponents_append_slash]
    | case2 => rfl
    | case3 rest ih =>
      rw [ih, List.reverse_cons, List.reverse_cons, List.append_assoc]
      exact (bodyComponents_append_dot rest.reverse).symm
    | case4 u hslash hdot hstep => rfl
  rw [trimEnd, hbackward, List.reverse_reverse]

/-- What is left when the end is trimmed stands in front. -/
theorem trimEnd_isPrefix (t : Text) : trimEnd t <+: t := by
  have hbackward (u : Text) : trimBackward u <:+ u := by
    fun_induction trimBackward u with
    | case1 rest ih => exact ih.trans (List.suffix_cons '/' rest)
    | case2 => exact List.nil_suffix
    | case3 rest ih => exact ih.trans (List.suffix_append ['.', '/'] rest)
    | case4 u hslash hdot hstep => exact List.suffix_refl u
  rw [← List.reverse_suffix, trimEnd, List.reverse_reverse]
  exact hbackward t.reverse

/-- Trimmed at the end, a path is not a single dot. -/
theorem trimEnd_ne_dot (t : Text) : trimEnd t ≠ ['.'] := by
  have hbackward (u : Text) : trimBackward u ≠ ['.'] := by
    fun_induction trimBackward u with
    | case1 rest ih => exact ih
    | case2 => simp
    | case3 rest ih => exact ih
    | case4 u hslash hdot hstep => exact hdot
  intro h
  rw [trimEnd, List.reverse_eq_iff] at h
  exact hbackward t.reverse h

/-- The text starts with a name, or the parent directory, or is empty. -/
def IsBody (t : Text) : Prop := startOf t = (none, t)

/-- A path starts with a name when neither a slash nor a single dot stands in front. -/
theorem isBody_iff {t : Text} :
    IsBody t ↔ ¬['/'] <+: t ∧ t ≠ ['.'] ∧ ¬['.', '/'] <+: t := by
  unfold IsBody
  constructor
  · intro h
    refine ⟨?_, ?_, ?_⟩
    · rintro ⟨rest, rfl⟩
      simp [startOf] at h
    · rintro rfl
      simp [startOf] at h
    · rintro ⟨rest, rfl⟩
      simp [startOf] at h
  · intro ⟨hslash, hdot, hstep⟩
    unfold startOf
    split
    · exact absurd ⟨_, rfl⟩ hslash
    · exact absurd rfl hdot
    · exact absurd ⟨_, rfl⟩ hstep
    · rfl

/-- Trimmed in front, a path starts with a name or is empty. -/
theorem isBody_trimFront (t : Text) : IsBody (trimFront t) := by
  fun_induction trimFront t with
  | case1 rest ih => exact ih
  | case2 => rfl
  | case3 rest ih => exact ih
  | case4 t hslash hdot hstep =>
    refine isBody_iff.2 ⟨?_, hdot, ?_⟩
    · intro ⟨rest, hrest⟩
      exact hslash rest hrest.symm
    · intro ⟨rest, hrest⟩
      exact hstep rest hrest.symm

/-- Trimmed at the end, a path still starts as it did. -/
theorem IsBody.trimEnd {t : Text} (h : IsBody t) : IsBody (trimEnd t) := by
  obtain ⟨hslash, -, hstep⟩ := isBody_iff.1 h
  refine isBody_iff.2 ⟨?_, trimEnd_ne_dot t, ?_⟩
  · exact fun hstart => hslash (hstart.trans (trimEnd_isPrefix t))
  · exact fun hstart => hstep (hstart.trans (trimEnd_isPrefix t))

/-! ## The components of a path -/

/-- The components of a path are its start and those of what follows. -/
theorem components_eq (p : FilePath) :
    p.components = (startOf p.text).1.toList ++ bodyComponents (startOf p.text).2 := by
  unfold components steps
  split
  · next component rest hstart => rw [hstart, List.map_cons, map_bodySteps]; rfl
  · next rest hstart => rw [hstart, map_bodySteps]; rfl

/-- A path without a start has the components of its text. -/
theorem components_of_isBody {t : Text} (h : IsBody t) : components ⟨t⟩ = bodyComponents t := by
  rw [components_eq, h]
  rfl

/-- What follows a step of a path has the components behind that step. -/
theorem drop_steps {p : FilePath} {rest : Text} {component : Component} {k : Nat}
    (h : p.steps[k]? = some (component, rest)) :
    bodyComponents rest = p.components.drop (k + 1) := by
  rw [components_eq]
  unfold steps at h
  split at h
  · next first body hstart =>
    rw [hstart]
    cases k with
    | zero =>
      obtain ⟨-, rfl⟩ := Prod.mk.inj (Option.some.inj h)
      rfl
    | succ k => exact drop_bodySteps h
  · next body hstart =>
    rw [hstart]
    exact drop_bodySteps h

/-- Trimming the end of a path's body leaves its components as they are. -/
theorem components_splitStart (p : FilePath) :
    components ⟨(splitStart p.text).1 ++ trimEnd (splitStart p.text).2⟩ = p.components := by
  obtain ⟨t⟩ := p
  by_cases hbody : IsBody t
  · have hstart : startOf t = (none, t) := hbody
    have hsplit : splitStart t = ([], t) := by simp only [splitStart, hstart]
    rw [hsplit, List.nil_append, components_of_isBody hbody.trimEnd, bodyComponents_trimEnd,
      components_of_isBody hbody]
  · rw [isBody_iff, not_and_or, not_and_or, not_not, not_not, not_not] at hbody
    rcases hbody with ⟨rest, rfl⟩ | rfl | ⟨rest, rfl⟩
    · have hsplit : splitStart (['/'] ++ rest) = (['/'], rest) := by simp [splitStart, startOf]
      rw [hsplit, components_eq, components_eq]
      simp [startOf, bodyComponents_trimEnd]
    · rfl
    · have hsplit : splitStart (['.', '/'] ++ rest) = (['.'], '/' :: rest) := by
        simp [splitStart, startOf]
      have hcomponents : bodyComponents (trimEnd ('/' :: rest)) = bodyComponents ('/' :: rest) :=
        bodyComponents_trimEnd _
      rw [hsplit, components_eq, components_eq]
      -- What is left of the body is empty or starts with its slash.
      obtain ⟨removed, hremoved⟩ := trimEnd_isPrefix ('/' :: rest)
      cases hleft : trimEnd ('/' :: rest) with
      | nil =>
        rw [hleft] at hcomponents
        simp [startOf, ← hcomponents]
      | cons c left =>
        rw [hleft, List.cons_append] at hremoved
        obtain ⟨rfl, -⟩ := List.cons.inj hremoved
        rw [hleft] at hcomponents
        simp [startOf, hcomponents]

/-- **Below a base, a path has the components that follow those of the base.** -/
theorem components_relativeTo {p base : FilePath} {rest : List Component}
    (h : p.components = base.components ++ rest) : (p.relativeTo base).components = rest := by
  have htake : p.components.take base.components.length = base.components := by
    rw [h, List.take_left]
  unfold relativeTo below?
  rw [if_pos htake]
  cases hwanted : base.components with
  | nil =>
    rw [hwanted, List.nil_append] at h
    exact (components_splitStart p).trans h
  | cons first wanted =>
    have hlt : wanted.length < p.steps.length := by
      have hlength := congrArg List.length h
      rw [components, List.length_map, hwanted] at hlength
      simp only [List.length_append, List.length_cons] at hlength
      omega
    obtain ⟨⟨component, text⟩, hstep⟩ : ∃ step, p.steps[wanted.length]? = some step :=
      ⟨_, List.getElem?_eq_getElem hlt⟩
    have hbody := (isBody_trimFront text).trimEnd
    have hcomponents : components ⟨trimEnd (trimFront text)⟩ = rest := by
      rw [components_of_isBody hbody, bodyComponents_trimEnd, bodyComponents_trimFront,
        drop_steps hstep, h, hwanted]
      exact List.drop_left
    simp only [List.length_cons, Nat.add_sub_cancel, hstep]
    exact hcomponents

/-! ## The order of paths -/

/-- What stands in front of two paths does not count in their order. -/
theorem order_relativeTo {p q base : FilePath} {left right : List Component}
    (hp : p.components = base.components ++ left) (hq : q.components = base.components ++ right) :
    (p.relativeTo base).order (q.relativeTo base) = p.order q := by
  unfold order
  rw [components_relativeTo hp, components_relativeTo hq, hp, hq]
  induction base.components with
  | nil => rfl
  | cons component components ih =>
    have hsame : component.order component = .eq := Std.ReflCmp.compare_self
    rw [List.cons_append, List.cons_append, List.compareLex_cons_cons, hsame, ← ih]
    rfl

end FilePath

/-- Components that are ordered alike are the same. -/
theorem Component.eq_of_order_eq {a b : Component} (h : a.order b = .eq) : a = b := by
  obtain ⟨hrank, hkey⟩ := Ordering.then_eq_eq.1 h
  have hkey : a.key = b.key := Std.LawfulEqCmp.eq_of_compare hkey
  cases a <;> cases b <;> simp_all [rank, key]

/-- Paths that are ordered alike have the same components. -/
theorem FilePath.components_eq_of_order_eq {p q : FilePath} (h : p.order q = .eq) :
    p.components = q.components := by
  have : Std.LawfulEqCmp Component.order := ⟨Component.eq_of_order_eq⟩
  exact Std.LawfulEqCmp.eq_of_compare h

end PhpLint

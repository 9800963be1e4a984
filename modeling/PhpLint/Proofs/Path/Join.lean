import PhpLint.Discovery
import PhpLint.Proofs.Path.Relative

/-!
# Paths joined to a base

What is joined to an absolute base comes back, as it was written, when the base is cut off
(`relativeTo_join`).  It has to be written the way a walk through a directory writes it: names with
single slashes between them, with no start of its own and nothing meaningless at its end.  The base
may be written in any way, repeated slashes, single dots and all.

The text that a base puts in front is made piece by piece (`front_eq`), so that the induction of the
main theorem goes along the pieces of the base.
-/

namespace PhpLint

/-- The text is a name: one piece of a path that stands for itself. -/
structure Component.IsName (t : Text) : Prop where
  one : '/' ∉ t
  piece : ofPiece? t = some (.name t)

instance (t : Text) : Decidable (Component.IsName t) :=
  decidable_of_iff ('/' ∉ t ∧ Component.ofPiece? t = some (.name t))
    ⟨fun ⟨hone, hpiece⟩ => ⟨hone, hpiece⟩, fun h => ⟨h.one, h.piece⟩⟩

namespace FilePath

open Component (IsName)

/-! ## The text in front of what is joined -/

/-- A text with a slash at its end, unless it is empty. -/
def front (t : Text) : Text := if t = [] ∨ t.getLast? = some '/' then t else t ++ ['/']

@[simp] theorem front_nil : front [] = [] := rfl

@[simp] theorem front_slash (t : Text) : front ('/' :: t) = '/' :: front t := by
  cases t with
  | nil => rfl
  | cons c t => by_cases hlast : (c :: t).getLast? = some '/' <;> simp_all [front]

/-- Up to a slash a text without one is the first piece. -/
theorem firstPiece_append_slash {piece : Text} (h : '/' ∉ piece) (t : Text) :
    firstPiece (piece ++ '/' :: t) = piece := by
  have hall : ∀ c ∈ piece, (c != '/') = true := by
    intro c hc
    simpa using ne_of_mem_of_not_mem hc h
  unfold firstPiece
  rw [List.takeWhile_append_of_pos hall]
  simp

theorem front_cons (c : Char) {t : Text} (h : t ≠ []) : front (c :: t) = c :: front t := by
  obtain ⟨d, t, rfl⟩ := List.exists_cons_of_ne_nil h
  by_cases hlast : (d :: t).getLast? = some '/' <;> simp_all [front]

/-- What a base puts in front starts with its first piece and a slash. -/
theorem front_eq {t : Text} (h : t ≠ []) : front t = firstPiece t ++ '/' :: front (afterPiece t) := by
  induction t with
  | nil => contradiction
  | cons c t ih =>
    by_cases hc : c = '/'
    · rw [hc, front_slash, firstPiece_slash, afterPiece_slash]
      rfl
    · rw [firstPiece_cons hc, afterPiece_cons hc]
      cases t with
      | nil => simp [front, firstPiece, afterPiece, hc]
      | cons d t => rw [front_cons c (List.cons_ne_nil d t), ih (List.cons_ne_nil d t), List.cons_append]

/-- A path without a start of its own goes behind what the base puts in front. -/
theorem join_eq {p q : FilePath} (hq : q.isAbsolute = false) : p.join q = ⟨front p.text ++ q.text⟩ := by
  unfold join front
  rw [if_neg (by simp [hq])]
  split
  · rfl
  · simp

/-- The components of what is joined are those of the base and then its own. -/
theorem bodyComponents_front_append (s t : Text) :
    bodyComponents (front s ++ t) = bodyComponents s ++ bodyComponents t := by
  by_cases hs : s = []
  · subst hs
    rfl
  by_cases hlast : s.getLast? = some '/'
  · obtain ⟨u, rfl⟩ := List.getLast?_eq_some_iff.1 hlast
    have hfront : front (u ++ ['/']) ++ t = u ++ '/' :: t := by simp [front]
    rw [hfront, bodyComponents_append_cons, bodyComponents_append_slash]
  · have hfront : front s ++ t = s ++ '/' :: t := by simp [front, hs, hlast]
    rw [hfront, bodyComponents_append_cons]

/-! ## Paths without a base -/

/-- The path is written as a walk below a directory writes it: it says something, has no start of its
own, and nothing at its end can be trimmed. -/
structure Inside (p : FilePath) : Prop where
  body : IsBody p.text
  trimmed : trimEnd p.text = p.text
  named : bodyComponents p.text ≠ []

/-- A path that starts with a name has no start of its own. -/
theorem IsBody.isAbsolute_eq_false {p : FilePath} (h : IsBody p.text) : p.isAbsolute = false := by
  obtain ⟨hslash, -, -⟩ := isBody_iff.1 h
  obtain ⟨t⟩ := p
  cases t with
  | nil => rfl
  | cons c t =>
    have hc : c ≠ '/' := by
      rintro rfl
      exact hslash ⟨t, rfl⟩
    simpa [isAbsolute] using hc

/-- A text that starts with a name still does so with more text behind it. -/
theorem IsBody.append {s : Text} (h : IsBody s) (hs : s ≠ []) (t : Text) : IsBody (s ++ t) := by
  obtain ⟨hslash, hdot, hstep⟩ := isBody_iff.1 h
  obtain ⟨c, s, rfl⟩ := List.exists_cons_of_ne_nil hs
  have hc : c ≠ '/' := by
    rintro rfl
    exact hslash ⟨s, rfl⟩
  cases s with
  | nil =>
    have hc' : c ≠ '.' := by
      rintro rfl
      exact hdot rfl
    refine isBody_iff.2 ⟨?_, ?_, ?_⟩ <;> simp [hc', Ne.symm hc, Ne.symm hc']
  | cons d s =>
    refine isBody_iff.2 ⟨by simp [Ne.symm hc], by simp, ?_⟩
    simpa using hstep

/-- A name starts with a name. -/
theorem isBody_of_isName {name : Text} (h : IsName name) : IsBody name := by
  refine isBody_iff.2 ⟨?_, ?_, ?_⟩
  · intro hstart
    exact h.one (hstart.subset List.mem_cons_self)
  · rintro rfl
    have hpiece := h.piece
    simp [Component.ofPiece?] at hpiece
  · intro hstart
    exact h.one (hstart.subset (by simp))

/-- A name is not empty. -/
theorem ne_nil_of_isName {name : Text} (h : IsName name) : name ≠ [] := by
  rintro rfl
  have hpiece := h.piece
  simp [Component.ofPiece?] at hpiece

/-- Nothing of a name at the end can be trimmed. -/
theorem trimEnd_append_name {name : Text} (h : IsName name) (t : Text) :
    trimEnd (t ++ name) = t ++ name := by
  have hbackward : trimBackward (name.reverse ++ t.reverse) = name.reverse ++ t.reverse := by
    have hone : '/' ∉ name.reverse := by simpa using h.one
    have hpiece := h.piece
    cases hname : name.reverse with
    | nil => exact absurd (List.reverse_eq_nil_iff.1 hname) (ne_nil_of_isName h)
    | cons c rest =>
      rw [hname] at hone
      rw [List.reverse_eq_iff] at hname
      have hc : c ≠ '/' := Ne.symm (List.ne_of_not_mem_cons hone)
      cases rest with
      | nil =>
        have hdot : c ≠ '.' := by
          rintro rfl
          simp [hname, Component.ofPiece?] at hpiece
        rw [trimBackward] <;> simp [hc, hdot]
      | cons d rest =>
        have hd : d ≠ '/' := by
          rintro rfl
          simp at hone
        rw [trimBackward] <;> simp [hc, hd]
  rw [trimEnd, List.reverse_append, hbackward, List.reverse_append, List.reverse_reverse,
    List.reverse_reverse]

theorem bodyComponents_of_isName {name : Text} (h : IsName name) :
    bodyComponents name = [.name name] := by
  rw [bodyComponents_of_not_mem h.one, h.piece]
  rfl

theorem nil_join {q : FilePath} (hq : IsBody q.text) : join ⟨[]⟩ q = q := by
  rw [join_eq hq.isAbsolute_eq_false]
  rfl

/-- An entry of the directory that a walk starts at. -/
theorem inside_of_isName {name : Text} (h : IsName name) : Inside ⟨name⟩ where
  body := isBody_of_isName h
  trimmed := trimEnd_append_name h []
  named := by simp [bodyComponents_of_isName h]

/-- An entry of a directory further in. -/
theorem Inside.join {p : FilePath} {name : Text} (hp : Inside p) (h : IsName name) :
    Inside (p.join ⟨name⟩) := by
  have hne : p.text ≠ [] := fun hnil => hp.named (by rw [hnil]; rfl)
  rw [join_eq (isBody_of_isName h).isAbsolute_eq_false]
  refine ⟨?_, trimEnd_append_name h _, ?_⟩
  · unfold front
    split
    · exact hp.body.append hne name
    · rw [List.append_assoc]
      exact hp.body.append hne _
  · simp [bodyComponents_front_append, bodyComponents_of_isName h]

/-- Paths are joined in either order. -/
theorem join_assoc {p q r : FilePath} (hq : IsBody q.text) (hr : IsBody r.text) :
    (p.join q).join r = p.join (q.join r) := by
  have hq' := hq.isAbsolute_eq_false
  have hr' := hr.isAbsolute_eq_false
  by_cases hnil : q.text = []
  · have hfront : front (front p.text) = front p.text := by
      unfold front
      split <;> simp_all
    rw [join_eq hq', join_eq hr', join_eq hr', hnil, front_nil, List.append_nil, List.nil_append,
      hfront, join_eq hr']
  · have hfront : front (front p.text ++ q.text) = front p.text ++ front q.text := by
      by_cases hlast : q.text.getLast? = some '/' <;>
        simp [front, hnil, hlast, List.getLast?_append]
    have hjoined : FilePath.isAbsolute ⟨front q.text ++ r.text⟩ = false := by
      refine IsBody.isAbsolute_eq_false ?_
      by_cases hlast : q.text.getLast? = some '/'
      · simpa [front, hlast] using hq.append hnil r.text
      · simpa [front, hnil, hlast] using hq.append hnil ('/' :: r.text)
    rw [join_eq hq', join_eq hr', join_eq hr', join_eq hjoined, hfront, List.append_assoc]

/-! ## Cutting the base off again -/

/-- Nothing meaningless stands in front of a name. -/
theorem trimFront_eq_of_isBody {t : Text} (h : IsBody t) : trimFront t = t := by
  obtain ⟨hslash, hdot, hstep⟩ := isBody_iff.1 h
  unfold trimFront
  split
  · exact absurd ⟨_, rfl⟩ hslash
  · exact absurd rfl hdot
  · exact absurd ⟨_, rfl⟩ hstep
  · rfl

/-- What starts with a name and says nothing is empty. -/
theorem eq_nil_of_isBody {t : Text} (ht : IsBody t) (h : bodyComponents t = []) : t = [] := by
  obtain ⟨hslash, hdot, hstep⟩ := isBody_iff.1 ht
  cases t with
  | nil => rfl
  | cons c t =>
    have hc : c ≠ '/' := by
      rintro rfl
      exact hslash ⟨t, rfl⟩
    rw [bodyComponents_eq, firstPiece_cons hc, List.append_eq_nil_iff, Option.toList_eq_nil_iff] at h
    have hpiece : c = '.' ∧ firstPiece t = [] := by
      have hnone := h.1
      unfold Component.ofPiece? at hnone
      split at hnone
      · next hvoid => simpa using hvoid
      · split at hnone <;> cases hnone
    obtain ⟨rfl, hfirst⟩ := hpiece
    cases t with
    | nil => exact absurd rfl hdot
    | cons d t =>
      have hd : d = '/' := by
        by_contra hd
        rw [firstPiece_cons hd] at hfirst
        cases hfirst
      subst hd
      exact absurd ⟨t, rfl⟩ hstep

/-- A text that says nothing is trimmed off together with its slash. -/
theorem trimFront_front_append {s : Text} (h : bodyComponents s = []) (t : Text) :
    trimFront (front s ++ t) = trimFront t := by
  fun_induction trimFront s with
  | case1 rest ih =>
    rw [front_slash, List.cons_append, trimFront]
    exact ih (by rwa [bodyComponents_slash_cons] at h)
  | case2 => simp [front, trimFront]
  | case3 rest ih =>
    rw [front_cons '.' (List.cons_ne_nil '/' rest), front_slash, List.cons_append, List.cons_append,
      trimFront]
    exact ih (by rwa [bodyComponents_dot_cons] at h)
  | case4 s hslash hdot hstep =>
    have hbody : IsBody s := by
      refine isBody_iff.2 ⟨?_, hdot, ?_⟩
      · intro hparts
        obtain ⟨rest, hrest⟩ := hparts
        exact hslash rest hrest.symm
      · intro hparts
        obtain ⟨rest, hrest⟩ := hparts
        exact hstep rest hrest.symm
    rw [eq_nil_of_isBody hbody h, front_nil, List.nil_append]

/-- The first piece of a base is the first one of what is joined to it. -/
theorem bodySteps_front_append {s : Text} (hs : s ≠ []) (t : Text) :
    bodySteps (front s ++ t) =
      (Component.ofPiece? (firstPiece s)).toList.map (·, front (afterPiece s) ++ t) ++
        bodySteps (front (afterPiece s) ++ t) := by
  have htext : front s ++ t = firstPiece s ++ '/' :: (front (afterPiece s) ++ t) := by
    rw [front_eq hs, List.append_assoc, List.cons_append]
  have hfirst : firstPiece (front s ++ t) = firstPiece s := by
    rw [htext, firstPiece_append_slash (slash_not_mem_firstPiece s)]
  have hafter : afterPiece (front s ++ t) = front (afterPiece s) ++ t := by
    rw [afterPiece, hfirst, htext]
    simp
  have hne : front s ++ t ≠ [] := by simp [htext]
  rw [bodySteps, dif_neg hne, hfirst, hafter]
  cases Component.ofPiece? (firstPiece s) <;> rfl

/-- Behind the components of a base, what is joined to it is left, however the base ends. -/
theorem exists_step_front {s t : Text} {k : Nat} (h : (bodyComponents s).length = k + 1) :
    ∃ component rest, (bodySteps (front s ++ t))[k]? = some (component, rest) ∧
      trimFront rest = trimFront t := by
  fun_induction bodySteps s generalizing k with
  | case1 => simp [bodyComponents, Text.splitOn, Component.ofPiece?] at h
  | case2 s hs component hpiece ih =>
    rw [bodyComponents_eq, hpiece] at h
    rw [bodySteps_front_append hs, hpiece]
    cases k with
    | zero =>
      have hnil : bodyComponents (afterPiece s) = [] := by simpa using h
      exact ⟨component, _, rfl, trimFront_front_append hnil t⟩
    | succ k => exact ih (by simpa using h)
  | case3 s hs hpiece ih =>
    rw [bodyComponents_eq, hpiece] at h
    rw [bodySteps_front_append hs, hpiece]
    exact ih (by simpa using h)

variable {R p q : FilePath}

/-- An absolute path is a slash and what follows, and its components are the root and those of what
follows. -/
theorem components_of_isAbsolute (hR : R.isAbsolute = true) :
    ∃ body, R.text = '/' :: body ∧ R.components = .root :: bodyComponents body := by
  obtain ⟨t⟩ := R
  cases t with
  | nil => simp [isAbsolute] at hR
  | cons c body =>
    obtain rfl : c = '/' := by simpa [isAbsolute] using hR
    exact ⟨body, rfl, components_eq _⟩

/-- The components of what is joined to an absolute base are those of the base and its own. -/
theorem Inside.components_join (hp : Inside p) (hR : R.isAbsolute = true) :
    (R.join p).components = R.components ++ bodyComponents p.text := by
  obtain ⟨body, htext, hcomponents⟩ := components_of_isAbsolute hR
  rw [join_eq hp.body.isAbsolute_eq_false, htext, front_slash, List.cons_append, components_eq,
    hcomponents]
  simp [startOf, bodyComponents_front_append]

/-- **What is joined to a base comes back, as it was written, when the base is cut off.** -/
theorem Inside.relativeTo_join (hp : Inside p) (hR : R.isAbsolute = true) :
    (R.join p).relativeTo R = p := by
  obtain ⟨body, htext, hcomponents⟩ := components_of_isAbsolute hR
  have htake : (R.join p).components.take R.components.length = R.components := by
    rw [hp.components_join hR, List.take_left]
  have hsteps : (R.join p).steps =
      (.root, front body ++ p.text) :: bodySteps (front body ++ p.text) := by
    rw [join_eq hp.body.isAbsolute_eq_false, htext, front_slash, List.cons_append]
    rfl
  obtain ⟨component, rest, hstep, hrest⟩ : ∃ component rest,
      (R.join p).steps[(bodyComponents body).length]? = some (component, rest) ∧
        trimFront rest = trimFront p.text := by
    rw [hsteps]
    cases hlength : (bodyComponents body).length with
    | zero =>
      exact ⟨_, _, rfl, trimFront_front_append (List.length_eq_zero_iff.1 hlength) p.text⟩
    | succ k => exact exists_step_front hlength
  have hleft : trimEnd (trimFront rest) = p.text := by
    rw [hrest, trimFront_eq_of_isBody hp.body, hp.trimmed]
  unfold relativeTo below?
  rw [if_pos htake, hcomponents]
  simp only [List.length_cons, Nat.add_sub_cancel, hstep, hleft, Option.getD_some]

/-- Without a base, a path is itself. -/
theorem Inside.relativeTo_nil (hp : Inside p) : p.relativeTo ⟨[]⟩ = p := by
  have hsplit : splitStart p.text = ([], p.text) := by
    have hstart : startOf p.text = (none, p.text) := hp.body
    simp only [splitStart, hstart]
  have hnil : components ⟨[]⟩ = [] := components_of_isBody rfl
  unfold relativeTo below?
  simp [hnil, hsplit, hp.trimmed]

/-- A base in front does not change the order of paths. -/
theorem Inside.order_join (hp : Inside p) (hq : Inside q) (hR : R.isAbsolute = true) :
    (R.join p).order (R.join q) = p.order q := by
  rw [← order_relativeTo (hp.components_join hR) (hq.components_join hR), hp.relativeTo_join hR,
    hq.relativeTo_join hR]

/-- A base in front does not change the name of a file. -/
theorem Inside.fileName?_join (hp : Inside p) (hR : R.isAbsolute = true) :
    (R.join p).fileName? = p.fileName? := by
  have hlast : (R.join p).components.getLast? = p.components.getLast? := by
    rw [hp.components_join hR, components_of_isBody hp.body,
      List.getLast?_append_of_ne_nil _ hp.named]
  unfold fileName?
  rw [hlast]

/-- A base in front does not change the extension of a file. -/
theorem Inside.hasExtension_join (hp : Inside p) (hR : R.isAbsolute = true)
    (extensions : List Text) : (R.join p).hasExtension extensions = p.hasExtension extensions := by
  unfold hasExtension extension?
  rw [hp.fileName?_join hR]

end FilePath

end PhpLint

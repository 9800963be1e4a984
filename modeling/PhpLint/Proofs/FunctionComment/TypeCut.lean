import PhpLint.Proofs.Checked.ReturnType

/-!
# Where the type in a return tag ends

A type is written as alternatives with bars between them (`IsAlternative`).  Such a type is read to its
end and no further, be it alone or in front of a description: `length_joined`.

Whatever a text is, what is read of it is a piece at its front that ends between two characters, and
reading that piece again takes all of it (`length_take_length`).  An alternative that is found in a text
lies in the piece as a whole, and none is found in the piece that the text does not have: a closing
parenthesis that the piece holds stands in the text at the same place.
-/

namespace PhpLint.ReturnType

variable {t name rest tail a : Text} {alternatives : List Text} {n m : Nat}

/-! ## One alternative -/

/-- An alternative of a type: a name, or the word `array` in any case of its letters and parentheses
with anything in them but the parenthesis that closes them. -/
inductive IsAlternative : Text → Prop
  | name {name : Text} (hne : name ≠ [])
      (hname : ∀ c ∈ name, c.isAlphanum = true ∨ c = '\\' ∨ c = '[' ∨ c = ']') : IsAlternative name
  | group {word inside : Text} (hword : Text.sameLetters word "array(".toList = true)
      (hinside : ')' ∉ inside) : IsAlternative (word ++ inside ++ [')'])

/-- Nothing, a bar or a blank: what stands behind an alternative. -/
def Stops (rest : Text) : Prop := ∀ c ∈ rest.head?, c = '|' ∨ c = ' '

/-- The characters of names are the letters and digits of ASCII, the separator and square brackets. -/
theorem isTypeChar_iff {c : Char} :
    isTypeChar c = true ↔ c.isAlphanum = true ∨ c = '\\' ∨ c = '[' ∨ c = ']' := by
  simp [isTypeChar, or_assoc]

/-- A name is an alternative, which is checked character by character. -/
theorem IsAlternative.of_all (hne : name ≠ []) (h : name.all isTypeChar = true) :
    IsAlternative name :=
  .name hne fun c hc => isTypeChar_iff.1 (List.all_eq_true.1 h c hc)

/-- What stands behind an alternative does not go on a name. -/
theorem Stops.takeWhile_eq (h : Stops rest) : rest.takeWhile isTypeChar = [] := by
  cases rest with
  | nil => rfl
  | cons c rest =>
    rcases h c rfl with rfl | rfl <;> rfl

theorem takeWhile_name (hname : ∀ c ∈ name, isTypeChar c = true) (hrest : Stops rest) :
    (name ++ rest).takeWhile isTypeChar = name := by
  rw [List.takeWhile_append_of_pos hname, hrest.takeWhile_eq, List.append_nil]

/-- A text that starts with the word `array` and a parenthesis starts with a name that is not followed by
a bar or a blank. -/
theorem exists_of_word (h : Text.foldCase (t.take 6) = "array(".toList) :
    ∃ word more, t = word ++ '(' :: more ∧ t.takeWhile isTypeChar = word := by
  have hparts : (t.take 6).map Char.toLower = "array".toList ++ ['('] := h
  obtain ⟨word, last, htake, hword, hlast⟩ := List.map_eq_append_iff.1 hparts
  obtain ⟨c, rest, rfl, hc, hrest⟩ := List.map_eq_cons_iff.1 hlast
  obtain rfl := List.map_eq_nil_iff.1 hrest
  have hfold : isTypeChar ∘ Char.toLower = isTypeChar := comp_toLower (by decide)
  have hletters : ∀ d ∈ word, isTypeChar d = true := by
    intro d hd
    have hlower : d.toLower ∈ "array".toList := hword ▸ List.mem_map_of_mem hd
    have hall : ∀ e ∈ "array".toList, isTypeChar e = true := List.all_eq_true.1 (by decide)
    exact (congrFun hfold d).symm.trans (hall _ hlower)
  have hparen : c = '(' := by
    have hsame : (· == '(') ∘ Char.toLower = (· == '(') := comp_toLower (by decide)
    exact beq_iff_eq.1 ((congrFun hsame c).symm.trans (beq_iff_eq.2 hc))
  subst hparen
  have htext : t = word ++ '(' :: t.drop 6 := by
    conv_lhs => rw [← List.take_append_drop 6 t, htake]
    simp
  refine ⟨word, t.drop 6, htext, ?_⟩
  rw [htext, List.takeWhile_append_of_pos hletters]
  simp [isTypeChar]

/-- A name is no array group, be it the word `array` itself. -/
theorem arrayGroup?_name (hname : ∀ c ∈ name, isTypeChar c = true) (hrest : Stops rest) :
    arrayGroup? (name ++ rest) = none := by
  cases hgroup : arrayGroup? (name ++ rest) with
  | none => rfl
  | some n =>
    obtain ⟨word, more, htext, htake⟩ := exists_of_word (arrayGroup?_eq_some_iff.1 hgroup).1
    rw [takeWhile_name hname hrest] at htake
    subst htake
    obtain rfl := List.append_cancel_left htext
    rcases hrest '(' rfl with h | h <;> cases h

/-- An alternative is read as a whole where it stops. -/
theorem alternative?_append (ha : IsAlternative a) (hrest : Stops rest) :
    alternative? (a ++ rest) = some a.length := by
  cases ha with
  | name hne hname =>
    have hname := fun c hc => isTypeChar_iff.2 (hname c hc)
    have hlength : a.length ≠ 0 := fun h => hne (List.length_eq_zero_iff.1 h)
    rw [alternative?, arrayGroup?_name hname hrest, name?_eq, takeWhile_name hname hrest,
      if_neg hlength]
    rfl
  | @group word inside hword hinside =>
    have hfold : Text.foldCase word = "array(".toList := Text.sameLetters_iff.1 hword
    have hsix : word.length = 6 := by simpa [Text.foldCase] using congrArg List.length hfold
    have htext : word ++ inside ++ [')'] ++ rest = word ++ (inside ++ ')' :: rest) := by simp
    have hgroup : arrayGroup? (word ++ inside ++ [')'] ++ rest) =
        some (word ++ inside ++ [')']).length := by
      rw [htext, arrayGroup?_eq_some_iff]
      refine ⟨?_, inside, rest, ?_, ?_⟩
      · rw [← hsix, List.take_left, hfold]
      · rw [← hsix, List.drop_left]
        exact Text.cut_singleton_iff.2 ⟨rfl, hinside⟩
      · simp [hsix]
        omega
    rw [alternative?, hgroup]
    rfl

/-- No alternative starts with a blank. -/
theorem alternative?_of_blank (t : Text) : alternative? (' ' :: t) = none := by
  have hblank : Stops (' ' :: t) := by simp [Stops]
  have hgroup : arrayGroup? ([] ++ ' ' :: t) = none :=
    arrayGroup?_name (List.forall_mem_nil _) hblank
  rw [List.nil_append] at hgroup
  rw [alternative?, hgroup, name?_eq, hblank.takeWhile_eq]
  rfl

/-! ## Alternatives with bars between them -/

/-- No alternative starts with a bar. -/
theorem barLength_append (ha : IsAlternative a) (rest : Text) : barLength (a ++ rest) = 0 := by
  refine if_neg fun hbar => ?_
  cases ha with
  | name hne hname =>
    obtain ⟨c, more, rfl⟩ := List.exists_cons_of_ne_nil hne
    obtain rfl := Option.some.inj hbar
    rcases hname '|' List.mem_cons_self with h | h | h | h
    · cases h
    all_goals exact absurd h (by decide)
  | @group word inside hword _ =>
    have hfold : Text.foldCase word = "array(".toList := Text.sameLetters_iff.1 hword
    cases word with
    | nil => cases hfold
    | cons c word =>
      obtain rfl := Option.some.inj hbar
      exact absurd (List.cons.inj hfold).1 (by decide)

/-- Reading goes on behind an alternative. -/
theorem length_append (ha : IsAlternative a) (hrest : Stops rest) :
    length (a ++ rest) = a.length + length rest := by
  have hbar := barLength_append ha rest
  have hread : alternative? ((a ++ rest).drop (barLength (a ++ rest))) = some a.length := by
    rw [hbar, List.drop_zero, alternative?_append ha hrest]
  rw [length_of_alternative hread, hbar, Nat.zero_add, List.drop_left]

/-- A bar is read with the alternative behind it. -/
theorem length_bar_append (ha : IsAlternative a) (hrest : Stops rest) :
    length ('|' :: (a ++ rest)) = 1 + length (a ++ rest) := by
  have hread : alternative? (('|' :: (a ++ rest)).drop (barLength ('|' :: (a ++ rest)))) =
      some a.length := alternative?_append ha hrest
  have hbehind : ('|' :: (a ++ rest)).drop (1 + a.length) = rest := by
    rw [Nat.add_comm, List.drop_succ_cons, List.drop_left]
  have hbar : barLength ('|' :: (a ++ rest)) = 1 := rfl
  rw [length_of_alternative hread, hbar, hbehind, length_append ha hrest, Nat.add_assoc]

/-- What follows a type: nothing, or a blank and a description. -/
inductive IsTail : Text → Prop
  | nothing : IsTail []
  | description (d : Text) : IsTail (' ' :: d)

theorem IsTail.stops (h : IsTail tail) : Stops tail := by
  cases h <;> simp [Stops]

/-- No type is read from a description. -/
theorem IsTail.length_eq (h : IsTail tail) : length tail = 0 := by
  cases h with
  | nothing => exact length_of_none rfl
  | description d => exact length_of_none (alternative?_of_blank d)

/-- A type is read to its end. -/
theorem length_joined (hne : alternatives ≠ []) (h : ∀ a ∈ alternatives, IsAlternative a)
    (htail : IsTail tail) :
    length (Text.joinWith ['|'] alternatives ++ tail) = (Text.joinWith ['|'] alternatives).length := by
  induction alternatives with
  | nil => exact absurd rfl hne
  | cons first more ih =>
    have hfirst := h first List.mem_cons_self
    have hmore := fun a ha => h a (List.mem_cons_of_mem first ha)
    cases more with
    | nil =>
      have hsingle : Text.joinWith ['|'] [first] = first := rfl
      rw [hsingle, length_append hfirst htail.stops, htail.length_eq, Nat.add_zero]
    | cons next more =>
      -- The rest starts with the next alternative, whatever stands behind that one.
      have hnext := hmore next List.mem_cons_self
      have hrest : ∃ rest, Stops rest ∧
          Text.joinWith ['|'] (next :: more) ++ tail = next ++ rest := by
        cases more with
        | nil => exact ⟨tail, htail.stops, rfl⟩
        | cons third more =>
          refine ⟨'|' :: (Text.joinWith ['|'] (third :: more) ++ tail), by simp [Stops], ?_⟩
          simp [Text.joinWith]
      obtain ⟨rest, hstops, heq⟩ := hrest
      have htext : Text.joinWith ['|'] (first :: next :: more) =
          first ++ '|' :: Text.joinWith ['|'] (next :: more) := by
        simp [Text.joinWith]
      have hbar : Stops ('|' :: (Text.joinWith ['|'] (next :: more) ++ tail)) := by simp [Stops]
      have hlength := ih (List.cons_ne_nil next more) hmore
      rw [htext, List.append_assoc, List.cons_append, length_append hfirst hbar, heq,
        length_bar_append hnext hstops, ← heq, hlength, List.length_append, List.length_cons]
      omega

/-! ## Reading a type again -/

/-- An array group is found in every piece that holds it. -/
theorem arrayGroup?_take (h : arrayGroup? t = some n) (hn : n ≤ m) :
    arrayGroup? (t.take m) = some n := by
  obtain ⟨hword, inside, after, hcut, rfl⟩ := arrayGroup?_eq_some_iff.1 h
  obtain ⟨htext, hinside⟩ := Text.cut_singleton_iff.1 hcut
  refine arrayGroup?_eq_some_iff.2 ⟨?_, inside, after.take (m - (inside.length + 7)), ?_, rfl⟩
  · rw [List.take_take, Nat.min_eq_left (by omega), hword]
  · refine Text.cut_singleton_iff.2 ⟨?_, hinside⟩
    have hfit : m - 6 = inside.length + (m - (inside.length + 7) + 1) := by omega
    rw [List.drop_take, htext, hfit, List.take_length_add_append, List.take_succ_cons]

/-- An array group that the text does not have is in no piece of it. -/
theorem arrayGroup?_take_of_none (h : arrayGroup? t = none) (m : Nat) :
    arrayGroup? (t.take m) = none := by
  cases hgroup : arrayGroup? (t.take m) with
  | none => rfl
  | some n =>
    obtain ⟨hword, inside, after, hcut, rfl⟩ := arrayGroup?_eq_some_iff.1 hgroup
    obtain ⟨htext, hinside⟩ := Text.cut_singleton_iff.1 hcut
    have hsix : 6 ≤ m := by
      have hlength := congrArg List.length hword
      simp at hlength
      omega
    rw [List.take_take, Nat.min_eq_left hsix] at hword
    rw [List.drop_take] at htext
    have hbehind : t.drop 6 = inside ++ ')' :: (after ++ (t.drop 6).drop (m - 6)) := by
      conv_lhs => rw [← List.take_append_drop (m - 6) (t.drop 6), htext]
      simp
    have hsome : arrayGroup? t = some (inside.length + 7) :=
      arrayGroup?_eq_some_iff.2
        ⟨hword, inside, _, Text.cut_singleton_iff.2 ⟨hbehind, hinside⟩, rfl⟩
    rw [h] at hsome
    cases hsome

/-- A name is found in every piece that holds it. -/
theorem name?_take (h : name? t = some n) (hn : n ≤ m) : name? (t.take m) = some n := by
  rw [name?_eq] at h ⊢
  split at h
  · cases h
  · next hpos =>
    obtain rfl := Option.some.inj h
    have hsame : ((t.take m).takeWhile isTypeChar).length = (t.takeWhile isTypeChar).length := by
      rw [← List.take_takeWhile, List.length_take, Nat.min_eq_right hn]
    rw [hsame, if_neg hpos]

/-- An alternative is read alike in a piece of the text that holds it. -/
theorem alternative?_take (h : alternative? t = some n) (hn : n ≤ m) :
    alternative? (t.take m) = some n := by
  rw [alternative?, Option.or_eq_some_iff] at h ⊢
  rcases h with hgroup | ⟨hnone, hname⟩
  · exact .inl (arrayGroup?_take hgroup hn)
  · exact .inr ⟨arrayGroup?_take_of_none hnone m, name?_take hname hn⟩

/-- A piece that is not empty starts with a bar where the text does. -/
theorem barLength_take (hm : 0 < m) : barLength (t.take m) = barLength t := by
  have hhead : (t.take m).head? = t.head? := by
    rw [List.head?_take, if_neg (by omega)]
  rw [barLength, barLength, hhead]

/-- The type at the front of a text is a type as a whole. -/
theorem length_take_length (t : Text) : length (t.take (length t)) = length t := by
  fun_induction length t with
  | case1 t n halt ih =>
    have hpos := (alternative?_pos halt).1
    let m := length (t.drop (barLength t + n))
    have hbar : barLength (t.take (barLength t + n + m)) = barLength t :=
      barLength_take (by omega)
    have hread : alternative? ((t.take (barLength t + n + m)).drop
        (barLength (t.take (barLength t + n + m)))) = some n := by
      rw [hbar, List.drop_take]
      exact alternative?_take halt (by omega)
    have hrest : (t.take (barLength t + n + m)).drop (barLength t + n) =
        (t.drop (barLength t + n)).take m := by
      rw [List.drop_take, Nat.add_sub_cancel_left]
    rw [length_of_alternative hread, hbar, hrest, ih]
  | case2 t halt => exact length_of_none rfl

/-- A type that is as long as it is read is what is read. -/
theorem ofText_of_length {type tail : Text} (h : length (type ++ tail) = type.length) :
    ofText (type ++ tail) = type := by
  rw [ofText, h, List.take_left]

/-- Reading a type again gives the type. -/
theorem ofText_ofText (t : Text) : ofText (ofText t) = ofText t := by
  have hagain := length_take_length t
  rw [ofText, ofText, hagain, List.take_take, Nat.min_self]

/-- The type ends between two characters: cutting the text behind its last byte gives the type. -/
theorem splitBytes?_length_bytes (t : Text) :
    Text.splitBytes? (length (Text.bytes t)) t = some (ofText t, t.drop (length t)) := by
  rw [length_bytes]
  exact Text.splitBytes?_eq_some_iff.2 ⟨(List.take_append_drop (length t) t).symm, rfl⟩

/-- **A type is cut off at its end.**  Alternatives with bars between them are what is read of a tag that
says them, be it alone or with a description behind them.  What is read of any text stands at its front,
the byte behind it starts a character, and reading it again changes nothing. -/
theorem ofText_cutsOff :
    (∀ alternatives : List Text, alternatives ≠ [] → (∀ a ∈ alternatives, IsAlternative a) →
      ofText (Text.joinWith ['|'] alternatives) = Text.joinWith ['|'] alternatives ∧
        ∀ description, ofText (Text.joinWith ['|'] alternatives ++ ' ' :: description) =
          Text.joinWith ['|'] alternatives) ∧
    ∀ t, ofText t <+: t ∧
      (∃ rest, Text.splitBytes? (length (Text.bytes t)) t = some (ofText t, rest)) ∧
      ofText (ofText t) = ofText t := by
  refine ⟨fun alternatives hne h => ⟨?_, fun description => ?_⟩, fun t => ?_⟩
  · have halone := ofText_of_length (length_joined hne h .nothing)
    rwa [List.append_nil] at halone
  · exact ofText_of_length (length_joined hne h (.description description))
  · exact ⟨List.take_prefix (length t) t, ⟨_, splitBytes?_length_bytes t⟩, ofText_ofText t⟩

/-- A name, an array in capitals that holds a bar and a character of two bytes, and the bare word, with a
description that starts like an alternative. -/
theorem ofText_cutsOff_described :
    ofText "\\App\\User[]|ARRAY(é => int|x)|array array(é) of them".toList =
        "\\App\\User[]|ARRAY(é => int|x)|array".toList ∧
      ∃ rest, Text.splitBytes? (length (Text.bytes "|array(é)é|x".toList)) "|array(é)é|x".toList =
        some ("|array(é)".toList, rest) := by
  let alternatives : List Text :=
    ["\\App\\User[]".toList, "ARRAY(".toList ++ "é => int|x".toList ++ [')'], "array".toList]
  have hgroup : IsAlternative ("ARRAY(".toList ++ "é => int|x".toList ++ [')']) :=
    .group (by decide) (by decide +kernel)
  have hall : ∀ a ∈ alternatives, IsAlternative a := by
    refine List.forall_mem_cons.2 ⟨.of_all (by decide) (by decide +kernel), ?_⟩
    refine List.forall_mem_cons.2 ⟨hgroup, List.forall_mem_singleton.2 ?_⟩
    exact .of_all (by decide) (by decide +kernel)
  have htype : "\\App\\User[]|ARRAY(é => int|x)|array".toList =
      Text.joinWith ['|'] alternatives := by decide +kernel
  have htext : "\\App\\User[]|ARRAY(é => int|x)|array array(é) of them".toList =
      Text.joinWith ['|'] alternatives ++ ' ' :: "array(é) of them".toList := by decide +kernel
  constructor
  · rw [htext, htype]
    exact (ofText_cutsOff.1 alternatives (List.cons_ne_nil _ _) hall).2 "array(é) of them".toList
  · obtain ⟨-, hcut, -⟩ := ofText_cutsOff.2 "|array(é)é|x".toList
    have hfront : ofText "|array(é)é|x".toList = "|array(é)".toList := by decide +kernel
    rwa [hfront] at hcut

end PhpLint.ReturnType

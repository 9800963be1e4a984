import Mathlib.Data.List.TakeWhile
import PhpLint.Proofs.Checked.Stream
import PhpLint.Proofs.Text.Bytes
import PhpLint.Sniff.ReturnType

/-!
# The type in a return tag with checked cuts

The type at the front of a text is read byte by byte, and cut off at the byte behind it.  The reading
takes pieces of the bytes that have to be there, and the cut has to fall between two characters.  It
does, since whatever a type consists of is ASCII except for what stands in the parentheses of an array,
and they are ASCII themselves: `returnType_eq`.
-/

namespace PhpLint

namespace ReturnType

variable {t : Text} {n : Nat}

/-- A type is as long as the bar in front, the alternative behind it and the type behind that. -/
theorem length_of_alternative (h : alternative? (t.drop (barLength t)) = some n) :
    length t = barLength t + n + length (t.drop (barLength t + n)) := by
  rw [length]
  split
  · next n' h' =>
    obtain rfl := Option.some.inj (h.symm.trans h')
    rfl
  · next h' => cases h.symm.trans h'

/-- Where no alternative stands behind the bar, there is no type, and the bar is none of it. -/
theorem length_of_none (h : alternative? (t.drop (barLength t)) = none) : length t = 0 := by
  rw [length]
  split
  · next n' h' => cases h.symm.trans h'
  · rfl

/-- An array group is the word with its parenthesis and all up to the first closing one. -/
theorem arrayGroup?_eq_some_iff : arrayGroup? t = some n ↔
    Text.foldCase (t.take 6) = "array(".toList ∧
      ∃ inside after, Text.cut [')'] (t.drop 6) = some (inside, after) ∧ n = inside.length + 7 := by
  unfold arrayGroup?
  split
  · next hword =>
    rw [Option.map_eq_some_iff]
    constructor
    · intro h
      obtain ⟨⟨inside, after⟩, hcut, rfl⟩ := h
      exact ⟨hword, inside, after, hcut, rfl⟩
    · intro h
      obtain ⟨-, inside, after, hcut, rfl⟩ := h
      exact ⟨(inside, after), hcut, rfl⟩
  · next hword =>
    constructor
    · intro h
      cases h
    · intro h
      exact absurd h.1 hword

/-- A name is the longest run of characters of types, if there are any. -/
theorem name?_eq (t : Text) :
    name? t = if (t.takeWhile isTypeChar).length = 0 then none
      else some (t.takeWhile isTypeChar).length := rfl

/-- An alternative is a piece of the text. -/
theorem alternative?_le (h : alternative? t = some n) : n ≤ t.length := by
  rw [alternative?, Option.or_eq_some_iff] at h
  rcases h with hgroup | ⟨-, hname⟩
  · obtain ⟨-, inside, after, hcut, rfl⟩ := arrayGroup?_eq_some_iff.1 hgroup
    have hlength := congrArg List.length (Text.cut_eq_some_append hcut)
    simp at hlength
    omega
  · rw [name?_eq] at hname
    split at hname
    · cases hname
    · obtain rfl := Option.some.inj hname
      exact (List.takeWhile_sublist isTypeChar).length_le

/-! ## The same type in the bytes -/

/-- Names consist of ASCII characters. -/
theorem isAscii_of_isTypeChar (c : Char) (h : isTypeChar c = true) : Text.isAscii c = true := by
  have hlt : c.val.toNat < 128 := by
    simp only [isTypeChar, Char.isAlphanum, Bool.or_eq_true, beq_iff_eq] at h
    rcases h with (((hletter | hdigit) | rfl) | rfl) | rfl
    · rcases (Bool.or_eq_true _ _).mp hletter with hupper | hlower
      · exact Nat.lt_of_le_of_lt (of_decide_eq_true hupper).2 (by decide)
      · exact Nat.lt_of_le_of_lt (of_decide_eq_true ((Bool.and_eq_true _ _).mp hlower).2)
          (by decide)
    · exact Nat.lt_of_le_of_lt (of_decide_eq_true ((Bool.and_eq_true _ _).mp hdigit).2) (by decide)
    all_goals decide
  exact decide_eq_true hlt

/-- A bar is a piece of the text. -/
theorem barLength_le (t : Text) : barLength t ≤ t.length := by
  unfold barLength
  split
  · next hbar =>
    cases t with
    | nil => cases hbar
    | cons c rest => simp
  · exact Nat.zero_le _

theorem barLength_bytes (t : Text) : barLength (Text.bytes t) = barLength t := by
  unfold barLength
  simp only [Text.head?_bytes_eq_some_iff (c := '|') rfl]

/-- A bar takes as many bytes as characters. -/
theorem utf8Length_take_barLength (t : Text) :
    Text.utf8Length (t.take (barLength t)) = barLength t := by
  unfold barLength
  split
  · next hbar =>
    cases t with
    | nil => cases hbar
    | cons c rest =>
      obtain rfl := Option.some.inj hbar
      rfl
  · rfl

/-- Behind the bar stand the bytes of what stands behind the bar in the text. -/
theorem drop_barLength_bytes (t : Text) :
    (Text.bytes t).drop (barLength t) = Text.bytes (t.drop (barLength t)) := by
  rw [← Text.drop_bytes, utf8Length_take_barLength]

/-- In the bytes an array group is as long as its own bytes are, whatever stands in the parentheses. -/
theorem arrayGroup?_bytes (t : Text) :
    arrayGroup? (Text.bytes t) = (arrayGroup? t).map fun n => Text.utf8Length (t.take n) := by
  have hall : ∀ c ∈ "array(".toList, Text.isAscii c = true := List.all_eq_true.1 (by decide)
  have hword : Text.foldCase ((Text.bytes t).take 6) = "array(".toList ↔
      Text.foldCase (t.take 6) = "array(".toList := Text.foldCase_take_bytes hall t
  rw [arrayGroup?, arrayGroup?]
  by_cases h : Text.foldCase (t.take 6) = "array(".toList
  · -- The word in front is as long in the bytes, and so is what stands behind the parenthesis.
    have hascii : ∀ c ∈ t.take 6, Text.isAscii c = true := by
      intro c hc
      have hlower : c.toLower ∈ "array(".toList := h ▸ List.mem_map_of_mem hc
      exact (congrFun Text.isAscii_comp_toLower c).symm.trans (hall _ hlower)
    have hsix : (t.take 6).length = 6 := by simpa using congrArg List.length h
    have hfront : Text.utf8Length (t.take 6) = 6 := by
      rw [Text.utf8Length_of_ascii hascii, hsix]
    have hdrop := Text.drop_bytes 6 t
    rw [hfront] at hdrop
    rw [if_pos (hword.2 h), if_pos h, hdrop, Text.cut_bytes rfl, Option.map_map, Option.map_map]
    cases hcut : Text.cut [')'] (t.drop 6) with
    | none => rfl
    | some parts =>
      obtain ⟨inside, after⟩ := parts
      have hgroup : t.take (inside.length + 7) = t.take 6 ++ (inside ++ [')']) := by
        have hbehind : (t.drop 6).take (inside.length + 1) = inside ++ [')'] := by
          rw [Text.cut_eq_some_append hcut]
          exact List.take_left' (by simp)
        rw [Nat.add_comm, ← hbehind, ← List.take_add]
        exact congrArg (List.take · t) (by omega)
      have hparenthesis : Text.utf8Length [')'] = 1 := rfl
      simp only [Option.map_some, Function.comp_apply, hgroup, Text.utf8Length_append, hfront,
        hparenthesis, Text.length_bytes]
      exact congrArg some (by omega)
  · rw [if_neg (mt hword.1 h), if_neg h]
    rfl

/-- In the bytes a name is as long as its own bytes are. -/
theorem name?_bytes (t : Text) :
    name? (Text.bytes t) = (name? t).map fun n => Text.utf8Length (t.take n) := by
  have hname : t.take (t.takeWhile isTypeChar).length = t.takeWhile isTypeChar :=
    (List.prefix_iff_eq_take.1 <| List.takeWhile_prefix isTypeChar).symm
  have hascii : ∀ c ∈ t.takeWhile isTypeChar, Text.isAscii c = true := by
    intro c hc
    exact isAscii_of_isTypeChar c (List.mem_takeWhile_imp hc)
  rw [name?_eq, name?_eq, Text.takeWhile_bytes isAscii_of_isTypeChar]
  split
  · rfl
  · rw [Option.map_some, hname, Text.utf8Length_of_ascii hascii]

/-- In the bytes an alternative is as long as its own bytes are. -/
theorem alternative?_bytes (t : Text) :
    alternative? (Text.bytes t) = (alternative? t).map fun n => Text.utf8Length (t.take n) := by
  rw [alternative?, alternative?, arrayGroup?_bytes, name?_bytes]
  cases arrayGroup? t <;> rfl

/-- The type is as long in the bytes as its own bytes are. -/
theorem length_bytes (t : Text) :
    length (Text.bytes t) = Text.utf8Length (t.take (length t)) := by
  fun_induction length t with
  | case1 t n halt ih =>
    have hbytes : alternative? ((Text.bytes t).drop (barLength (Text.bytes t))) =
        some (Text.utf8Length ((t.drop (barLength t)).take n)) := by
      rw [barLength_bytes, drop_barLength_bytes, alternative?_bytes, halt]
      rfl
    have hrest : (Text.bytes t).drop (barLength t + Text.utf8Length ((t.drop (barLength t)).take n)) =
        Text.bytes (t.drop (barLength t + n)) := by
      rw [← List.drop_drop, drop_barLength_bytes, Text.drop_bytes, List.drop_drop]
    rw [length_of_alternative hbytes, barLength_bytes, hrest, ih, List.take_add, List.take_add,
      Text.utf8Length_append, Text.utf8Length_append, utf8Length_take_barLength]
  | case2 t halt =>
    have hbytes : alternative? ((Text.bytes t).drop (barLength (Text.bytes t))) = none := by
      rw [barLength_bytes, drop_barLength_bytes, alternative?_bytes, halt]
      rfl
    rw [length_of_none hbytes]
    rfl

end ReturnType

namespace Checked

open ReturnType (isTypeChar)

variable {bytes : Text} {pos stop : Nat}

/-- The bytes from an offset on, taken as one piece. -/
def rest (bytes : Text) (pos : Nat) : Checked Text :=
  if pos ≤ bytes.length then .ok (bytes.drop pos) else .error (.piece pos)

/-- Where the array group at an offset ends. -/
def arrayGroup? (bytes : Text) (pos : Nat) : Checked (Option Nat) := do
  let stop ← plus pos 6
  if stop ≤ bytes.length ∧ Text.foldCase ((bytes.drop pos).take 6) = "array(".toList then
    match Text.cut [')'] (← rest bytes stop) with
    | some (inside, _) => return some (← plus (← plus stop inside.length) 1)
    | none => return none
  else return none

/-- Where the name at an offset ends. -/
def name? (bytes : Text) (pos : Nat) : Checked (Option Nat) := do
  let n := ((← rest bytes (min pos bytes.length)).takeWhile isTypeChar).length
  if n = 0 then return none else return some (← plus pos n)

/-- Where the alternative at an offset ends. -/
def alternative? (bytes : Text) (pos : Nat) : Checked (Option Nat) := do
  match ← arrayGroup? bytes pos with
  | some stop => return some stop
  | none => name? bytes pos

/-- The offset behind the bar that may stand at an offset. -/
def behindBar (bytes : Text) (pos : Nat) : Checked Nat :=
  if bytes[pos]? = some '|' then plus pos 1 else return pos

/-- Where the type ends whose alternatives up to an offset have been read. -/
def typeEnd (bytes : Text) (stop : Nat) : Checked Nat := do
  match ← alternative? bytes (← behindBar bytes stop) with
  | some next =>
    if _h : stop < next ∧ next ≤ bytes.length then typeEnd bytes next else .error .stuck
  | none => return stop
termination_by bytes.length - stop

/-- The type at the front of a text, cut off behind its last byte. -/
def returnType (t : Text) : Checked Text := do
  let stop ← typeEnd (Text.bytes t) 0
  match Text.splitBytes? stop t with
  | some (type, _) => return type
  | none => .error (.cut stop)

/-- The bytes from an offset on are there if the offset is not behind the end. -/
theorem rest_eq (h : pos ≤ bytes.length) : rest bytes pos = .ok (bytes.drop pos) := if_pos h

/-- The end of an array group is found from every offset of the bytes. -/
theorem arrayGroup?_eq (hbytes : bytes.length < 2 ^ 63) (hpos : pos ≤ bytes.length) :
    arrayGroup? bytes pos =
      .ok ((ReturnType.arrayGroup? (bytes.drop pos)).map (pos + ·)) := by
  rw [arrayGroup?, plus_eq (by omega), ok_bind, ReturnType.arrayGroup?]
  by_cases hword : Text.foldCase ((bytes.drop pos).take 6) = "array(".toList
  · have hlength := congrArg List.length hword
    simp at hlength
    rw [if_pos ⟨by omega, hword⟩, if_pos hword, rest_eq (by omega), ok_bind, List.drop_drop]
    cases hcut : Text.cut [')'] (bytes.drop (pos + 6)) with
    | none => rfl
    | some parts =>
      obtain ⟨inside, after⟩ := parts
      have hrest := congrArg List.length (Text.cut_eq_some_append hcut)
      simp at hrest
      dsimp only
      rw [plus_eq (by omega), ok_bind, plus_eq (by omega)]
      have hsum : pos + 6 + inside.length + 1 = pos + (inside.length + 7) := by omega
      exact congrArg (fun n => Except.ok (some n)) hsum
  · rw [if_neg (fun h => hword h.2), if_neg hword]
    rfl

theorem name?_eq (hbytes : bytes.length < 2 ^ 63) (hpos : pos ≤ bytes.length) :
    name? bytes pos = .ok ((ReturnType.name? (bytes.drop pos)).map (pos + ·)) := by
  have hle : ((bytes.drop pos).takeWhile isTypeChar).length ≤ (bytes.drop pos).length :=
    (List.takeWhile_sublist isTypeChar).length_le
  rw [List.length_drop] at hle
  rw [name?, Nat.min_eq_left hpos, rest_eq hpos, ok_bind, ReturnType.name?_eq]
  dsimp only
  rw [plus_eq (by omega)]
  split <;> rfl

/-- The end of an alternative is found from every offset of the bytes. -/
theorem alternative?_eq (hbytes : bytes.length < 2 ^ 63) (hpos : pos ≤ bytes.length) :
    alternative? bytes pos =
      .ok ((ReturnType.alternative? (bytes.drop pos)).map (pos + ·)) := by
  rw [alternative?, arrayGroup?_eq hbytes hpos, ok_bind, name?_eq hbytes hpos,
    ReturnType.alternative?]
  cases ReturnType.arrayGroup? (bytes.drop pos) <;> rfl

theorem behindBar_eq (hbytes : bytes.length < 2 ^ 63) (hpos : pos ≤ bytes.length) :
    behindBar bytes pos = .ok (pos + ReturnType.barLength (bytes.drop pos)) := by
  rw [behindBar, plus_eq (by omega), ReturnType.barLength, List.head?_drop]
  split <;> rfl

/-- The end of a type is found, and the loop goes forward with every alternative. -/
theorem typeEnd_eq (hbytes : bytes.length < 2 ^ 63) (hstop : stop ≤ bytes.length) :
    typeEnd bytes stop = .ok (stop + ReturnType.length (bytes.drop stop)) := by
  have halternative (stop : Nat) (hstop : stop ≤ bytes.length) :
      (behindBar bytes stop >>= alternative? bytes) =
        .ok ((ReturnType.alternative?
          ((bytes.drop stop).drop (ReturnType.barLength (bytes.drop stop)))).map
            (stop + ReturnType.barLength (bytes.drop stop) + ·)) := by
    have hbar := ReturnType.barLength_le (bytes.drop stop)
    rw [List.length_drop] at hbar
    rw [behindBar_eq hbytes hstop, ok_bind, alternative?_eq hbytes (by omega), List.drop_drop]
  generalize htext : bytes.drop stop = t
  fun_induction ReturnType.length t generalizing stop with
  | case1 t n halt ih =>
    -- The next alternative ends behind the one before it, within the bytes.
    subst htext
    have hle := ReturnType.alternative?_le halt
    have hpos := (ReturnType.alternative?_pos halt).1
    have hbar := ReturnType.barLength_le (bytes.drop stop)
    rw [List.length_drop, List.length_drop] at hle
    rw [List.length_drop] at hbar
    have hread := halternative stop hstop
    rw [halt, Option.map_some] at hread
    have hforward : stop < stop + ReturnType.barLength (bytes.drop stop) + n ∧
        stop + ReturnType.barLength (bytes.drop stop) + n ≤ bytes.length := by omega
    have hrest := ih hforward.2 (by rw [List.drop_drop, Nat.add_assoc])
    rw [typeEnd, ← bind_assoc, hread]
    simp only [ok_bind, dif_pos hforward, hrest]
    exact congrArg Except.ok (by omega)
  | case2 t halt =>
    subst htext
    have hread := halternative stop hstop
    rw [halt, Option.map_none] at hread
    rw [typeEnd, ← bind_assoc, hread]
    rfl

/-- **The type in a return tag is cut off between two characters.** -/
theorem returnType_eq {t : Text} (ht : Text.utf8Length t < 2 ^ 63) :
    returnType t = .ok (ReturnType.ofText t) := by
  have hcut : Text.splitBytes? (Text.utf8Length (t.take (ReturnType.length t))) t =
      some (t.take (ReturnType.length t), t.drop (ReturnType.length t)) :=
    Text.splitBytes?_eq_some_iff.2 ⟨(List.take_append_drop _ t).symm, rfl⟩
  rw [returnType, typeEnd_eq (by rwa [Text.length_bytes]) (Nat.zero_le _), ok_bind, List.drop_zero,
    Nat.zero_add, ReturnType.length_bytes, hcut]
  rfl

end Checked

end PhpLint

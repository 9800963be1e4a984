import PhpLint.Text

/-!
# The case of a letter

A function of characters does not see the case of letters if it treats each of the 26 upper-case
letters like its lower-case form (`comp_toLower`), which is a matter of looking at all of them.
-/

namespace PhpLint

/-- The upper-case letters of ASCII. -/
def upperLetters : List Char := (List.range' 65 26).map Char.ofNat

/-- Only upper-case letters have a lower case of their own. -/
theorem toLower_eq_or_mem (c : Char) : c.toLower = c ∨ c ∈ upperLetters := by
  by_cases hupper : c.val ≥ 'A'.val ∧ c.val ≤ 'Z'.val
  · right
    have hfirst : 65 ≤ c.toNat := UInt32.le_iff_toNat_le.1 hupper.1
    have hlast : c.toNat ≤ 90 := UInt32.le_iff_toNat_le.1 hupper.2
    refine List.mem_map.2 ⟨c.toNat, ?_, Char.ofNat_toNat c⟩
    rw [List.mem_range'_1]
    omega
  · left
    exact dif_neg hupper

/-- What treats each upper-case letter like its lower case does not see the case of letters. -/
theorem comp_toLower {α : Type} {f : Char → α}
    (h : upperLetters.map (fun c => f c.toLower) = upperLetters.map f) : f ∘ Char.toLower = f := by
  funext c
  rcases toLower_eq_or_mem c with hsame | hmem
  · exact congrArg f hsame
  · exact List.map_inj_left.1 h c hmem

theorem toLower_toLower (c : Char) : c.toLower.toLower = c.toLower :=
  congrFun (comp_toLower (f := Char.toLower) (by decide)) c

end PhpLint

import PhpLint.Text

/-!
# TOML values

What a TOML document holds.  No setting of the linter is a fraction or a date, so a float keeps no
number, and a date keeps its canonical text alone.
-/

namespace PhpLint.Toml

/-- A value of a TOML document. -/
inductive Value
  | string (text : Text)
  | integer (n : Int)
  | float
  | boolean (b : Bool)
  | datetime (text : Text)
  | array (elements : List Value)
  | table (entries : List (Text × Value))
  deriving Repr, Inhabited

/-- The entries of a table, in the order in which they were written. -/
abbrev Entries := List (Text × Value)

namespace Value

/-- The text of a string. -/
def asString? : Value → Option Text
  | string t => some t
  | _ => none

/-- The number of an integer. -/
def asInteger? : Value → Option Int
  | integer n => some n
  | _ => none

/-- The truth value of a boolean. -/
def asBoolean? : Value → Option Bool
  | boolean b => some b
  | _ => none

/-- The elements of an array. -/
def asArray? : Value → Option (List Value)
  | array vs => some vs
  | _ => none

mutual

/-- The same value. -/
def same : Value → Value → Bool
  | string s, string t => s == t
  | integer m, integer n => m == n
  | float, float => true
  | boolean a, boolean b => a == b
  | datetime s, datetime t => s == t
  | array vs, array ws => sameElements vs ws
  | table es, table fs => sameEntries es fs
  | _, _ => false

/-- The same values in the same order. -/
def sameElements : List Value → List Value → Bool
  | [], [] => true
  | v :: vs, w :: ws => same v w && sameElements vs ws
  | _, _ => false

/-- The same keys with the same values in the same order. -/
def sameEntries : Entries → Entries → Bool
  | [], [] => true
  | (k, v) :: es, (l, w) :: fs => k == l && same v w && sameEntries es fs
  | _, _ => false

end

mutual

/-- Values are compared entry by entry, so their equality is decided. -/
theorem same_iff : (v w : Value) → (v.same w = true ↔ v = w)
  | string s, w => by cases w <;> simp [same]
  | integer n, w => by cases w <;> simp [same]
  | float, w => by cases w <;> simp [same]
  | boolean b, w => by cases w <;> simp [same]
  | datetime s, w => by cases w <;> simp [same]
  | array vs, w => by cases w <;> simp [same, sameElements_iff vs]
  | table es, w => by cases w <;> simp [same, sameEntries_iff es]

/-- Arrays are compared element by element. -/
theorem sameElements_iff : (vs ws : List Value) → (sameElements vs ws = true ↔ vs = ws)
  | [], ws => by cases ws <;> simp [sameElements]
  | v :: vs, ws => by cases ws <;> simp [sameElements, same_iff v, sameElements_iff vs]

/-- Tables are compared entry by entry, the order of entries included. -/
theorem sameEntries_iff : (es fs : Entries) → (sameEntries es fs = true ↔ es = fs)
  | [], fs => by cases fs <;> simp [sameEntries]
  | (k, v) :: es, fs => by
    cases fs <;> simp [sameEntries, same_iff v, sameEntries_iff es, Prod.ext_iff]

end

instance : DecidableEq Value := fun v w => decidable_of_iff (v.same w = true) (same_iff v w)

end Value

end PhpLint.Toml

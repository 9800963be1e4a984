/-!
# JSON values

What the machine-readable form of a report is made of.  All its numbers are integers.  The entries
of an object keep their order.

A record with named fields is written as an object, in which other entries are ignored, or as an
array of exactly its fields in order.  An object in which a field of the record stands twice is no
record.
-/

namespace PhpLint

/-- A JSON value. -/
inductive Json
  | null
  | boolean (b : Bool)
  | integer (n : Int)
  | string (s : String)
  | array (elements : List Json)
  | object (entries : List (String × Json))
  deriving Repr, Inhabited

namespace Json

/-- The entries of a record whose fields are `names`, none of which may stand there twice. -/
def fields? (names : List String) : Json → Option (List (String × Json))
  | object entries =>
    if names.all fun name => (entries.filter (·.1 == name)).length ≤ 1 then some entries else none
  | array elements => if elements.length = names.length then some (names.zip elements) else none
  | _ => none

/-- A field that has to be there. -/
def required (fields : List (String × Json)) (name : String) (decode : Json → Option α) :
    Option α :=
  (fields.lookup name).bind decode

/-- A field that may be missing or null. -/
def optional (fields : List (String × Json)) (name : String) (decode : Json → Option α) :
    Option (Option α) :=
  match fields.lookup name with
  | none | some null => some none
  | some v => (decode v).map some

/-- The text of a string. -/
def asString? : Json → Option String
  | string s => some s
  | _ => none

/-- The least number that is too large for a count or an offset: two to the power of 64. -/
def countLimit : Nat := 18446744073709551616

/-- A number that is not negative and has 64 bits. -/
def asNat? : Json → Option Nat
  | integer (.ofNat n) => if n < countLimit then some n else none
  | _ => none

/-- The values of an array, all decoded. -/
def asList? (decode : Json → Option α) : Json → Option (List α)
  | array elements => elements.mapM decode
  | _ => none

/-- One of several words.  A word is a string, or an object whose one key it is, without a value. -/
def asWord? : Json → Option String
  | string s => some s
  | object [(s, null)] => some s
  | _ => none

/-- The value, or null. -/
def ofOption (encode : α → Json) : Option α → Json
  | some a => encode a
  | none => null

end Json

end PhpLint

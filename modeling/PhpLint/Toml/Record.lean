import PhpLint.Toml.Value

/-!
# Records written in TOML

A record has named fields, each of which may be left out.  It is written as a table, in which names
that it does not know are ignored, or as an array that gives its fields in their order.  A date
counts as a table with one entry, whose key no record knows.
-/

namespace PhpLint.Toml

namespace Value

/-- The entries of a record whose fields are `names`. -/
def fields? (names : List Text) : Value → Option Entries
  | table entries => some entries
  | array elements => some (names.zip elements)
  | datetime _ => some []
  | _ => none

/-- The texts of an array that holds nothing else. -/
def asTexts? : Value → Option (List Text)
  | array elements => elements.mapM asString?
  | _ => none

/-- One of several words.  A word is written as a string, or as a table whose one key it is and
whose value there is empty. -/
def asWord? : Value → Option Text
  | string t => some t
  | table [(t, table [])] => some t
  | table [(t, array [])] => some t
  | _ => none

end Value

namespace Entries

/-- The value under a key. -/
def get? (entries : Entries) (key : Text) : Option Value := entries.lookup key

/-- The field under a key, which may be left out but has to make sense where it is written. -/
def field? (entries : Entries) (key : Text) (decode : Value → Option α) : Option (Option α) :=
  match entries.get? key with
  | none => some none
  | some v => (decode v).map some

/-- The entries under other keys. -/
def without (entries : Entries) (keys : List Text) : Entries :=
  entries.filter fun e => !keys.contains e.1

end Entries

end PhpLint.Toml

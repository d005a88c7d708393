/-
JSON values, and taking records, lists and numbers out of them. Objects keep
the order and the repetitions of their fields, as the rules for records need
both.
-/
import RequestFlow.Text.Numeral

namespace RequestFlow

inductive Json where
  | null
  | flag (value : Bool)
  | integer (value : Int)
  /-- A number with a fraction or an exponent, or a negative zero, as written. -/
  | decimal (text : String)
  | text (value : String)
  | list (items : List Json)
  | object (fields : List (String × Json))
  /-- A string with half a surrogate pair, or an object with such a key. It may be skipped, but it
  has no value. -/
  | garbled
  deriving Repr, Inhabited

namespace Json

/-- A non-negative whole number. -/
def ofNat (n : Nat) : Json := integer n

/-- A list of strings. -/
def texts (list : List String) : Json := .list (list.map .text)

def text? : Json → Option String
  | text value => some value
  | _ => none

def flag? : Json → Option Bool
  | flag value => some value
  | _ => none

/-- An unsigned number of 64 bits. -/
def word? : Json → Option Nat
  | integer value => if 0 ≤ value ∧ value < wordBound then some value.toNat else none
  | _ => none

def list? {α : Type} (item? : Json → Option α) : Json → Option (List α)
  | list items => items.mapM item?
  | _ => none

/-- What may be left out by writing `null`. -/
def optional? {α : Type} (item? : Json → Option α) : Json → Option (Option α)
  | null => some none
  | json => (item? json).map some

/-- One of several names: a string, or an object that has the name as its only key, with `null`. -/
def variant? : Json → Option String
  | text name => some name
  | object [(name, null)] => some name
  | _ => none

/-- The value of a field that may be absent, but not repeated. -/
def field? (name : String) (fields : List (String × Json)) : Option (Option Json) :=
  match fields.filter (·.1 == name) with
  | [] => some none
  | [(_, value)] => some (some value)
  | _ => none

/-- The parts of a record, in the order of the names: by name from an object, where other fields are
skipped, or by position from a list, which may stop early. -/
def record? (names : List String) : Json → Option (List (Option Json))
  | object fields => names.mapM (field? · fields)
  | list items =>
    if items.length ≤ names.length then
      some (items.map some ++ List.replicate (names.length - items.length) none)
    else none
  | _ => none

end Json

end RequestFlow

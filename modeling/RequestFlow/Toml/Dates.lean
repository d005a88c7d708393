/-
Dates in the shape of tables. Where a document is taken as plain data, a table
inside it whose first key is a reserved one stands for the date that this key
holds as a text.
-/
import RequestFlow.Toml.Scalar

namespace RequestFlow

namespace Toml

/-- The key by which a table stands for a date. -/
def dateKey : String := "$__toml_private_datetime"

/-- The table is meant as a date. Only its first key counts. -/
def Fields.isDate (fields : Fields) : Bool := fields.head?.any (·.1 == dateKey)

/-- The date that a table stands for, if its first value is one. -/
def Fields.date? : Fields → Option Toml
  | (_, .text value) :: _ => Scalar.moment? value.toList
  | _ => none

mutual

/-- A value as plain data; none if it holds a table that is meant as a date and is none. -/
def plain? : Toml → Option Toml
  | .list items => (plainItems? items).map .list
  | .tables items => (plainItems? items).map .tables
  | .table kind fields =>
    if Fields.isDate fields then Fields.date? fields else (plainFields? fields).map (.table kind)
  | value => some value

def plainItems? : List Toml → Option (List Toml)
  | [] => some []
  | item :: rest => do some ((← plain? item) :: (← plainItems? rest))

/-- The fields of a table as plain data. -/
def plainFields? : List (String × Toml) → Option (List (String × Toml))
  | [] => some []
  | (name, value) :: rest => do some ((name, ← plain? value) :: (← plainFields? rest))

end

end Toml

end RequestFlow

/-
TOML documents as values, and the rules by which headers and dotted keys build
their tables: what a header has opened, and what a braced table has closed,
cannot be defined again.
-/

namespace RequestFlow

/-- How a table came about. -/
inductive TableKind where
  /-- Written in braces, so complete. -/
  | inline
  /-- Opened by a header of its own. -/
  | header
  /-- On the way of a longer header. -/
  | implied
  /-- On the way of a dotted key. -/
  | dotted
  deriving DecidableEq, Repr

inductive Toml where
  | text (value : String)
  | integer (value : Int)
  | float
  | flag (value : Bool)
  /-- A date, a time, or both. -/
  | moment
  | list (items : List Toml)
  | table (kind : TableKind) (fields : List (String × Toml))
  /-- The tables of repeated headers, each a table. -/
  | tables (items : List Toml)
  deriving Repr, Inhabited

namespace Toml

abbrev Fields := List (String × Toml)

namespace Fields

def get? (fields : Fields) (name : String) : Option Toml :=
  (fields.find? (·.1 == name)).map (·.2)

/-- Gives a field its value, in its place if it is there already. -/
def set (name : String) (value : Toml) : Fields → Fields
  | [] => [(name, value)]
  | field :: rest =>
    if field.1 = name then (name, value) :: rest else field :: set name value rest

/-- Gives a field its value, as the last one. -/
def setLast (name : String) (value : Toml) (fields : Fields) : Fields :=
  fields.filter (·.1 != name) ++ [(name, value)]

end Fields

/-- A change to a table, which may be refused. -/
abbrev Change := TableKind → Fields → Option Fields

/-- Changes the table that a path leads to, through the last of repeated tables, and makes tables
that are missing. A dotted key does not reach into a table that a header has opened. -/
def descend (dotted : Bool) (change : Change) : (path : List String) → Change
  | [], kind, fields => change kind fields
  | name :: path, _, fields => match Fields.get? fields name with
    | none => do
      let kind := if dotted then .dotted else .implied
      some (fields.set name (.table kind (← descend dotted change path kind [])))
    | some (.table kind inner) =>
      if kind = .inline ∨ (dotted ∧ kind = .header) then none
      else do some (fields.set name (.table kind (← descend dotted change path kind inner)))
    | some (.tables items) => match items.getLast? with
      | some (.table kind inner) => do
        let last := .table kind (← descend dotted change path kind inner)
        some (fields.set name (.tables (items.dropLast ++ [last])))
      | _ => none
    | some _ => none

/-- Adds a field. A dotted key ends in a table made by dotted keys, a plain one does not. -/
def addField (isDotted : Bool) (name : String) (value : Toml) : Change := fun kind fields =>
  if (kind = .dotted) ≠ isDotted then none
  else if (fields.get? name).isSome then none
  else some (fields ++ [(name, value)])

/-- Adds the value of a key, dotted or not, to a table. -/
def assign (path : List String) (name : String) (value : Toml) : Change :=
  descend true (addField (!path.isEmpty) name value) path

/-- Opens a table as the last field. It may only have been implied before. -/
def openTable (name : String) : Change := fun _ fields =>
  match Fields.get? fields name with
  | none => some (fields ++ [(name, .table .header [])])
  | some (.table .implied inner) => some (fields.setLast name (.table .header inner))
  | some _ => none

/-- Opens a further table of a repeated header. -/
def openRepeated (name : String) : Change := fun _ fields =>
  match Fields.get? fields name with
  | none => some (fields ++ [(name, .tables [.table .header []])])
  | some (.tables items) => some (fields.set name (.tables (items ++ [.table .header []])))
  | some _ => none

/-- A statement of a document. A key is its path and its last name. -/
inductive Statement where
  | header (path : List String) (name : String)
  | repeated (path : List String) (name : String)
  | field (path : List String) (name : String) (value : Toml)
  deriving Repr

/-- The document so far, and the header that its next fields belong to. -/
structure Draft where
  fields : Fields := []
  header : List String := []
  deriving Repr

namespace Draft

def step (draft : Draft) : Statement → Option Draft
  | .header path name => do
    some ⟨← descend false (openTable name) path .header draft.fields, path ++ [name]⟩
  | .repeated path name => do
    some ⟨← descend false (openRepeated name) path .header draft.fields, path ++ [name]⟩
  | .field path name value => do
    some ⟨← descend false (assign path name value) draft.header .header draft.fields, draft.header⟩

end Draft

/-- The table that statements define, if they fit together. -/
def ofStatements (statements : List Statement) : Option Fields := do
  some (← statements.foldlM Draft.step {}).fields

/-- The table that the fields in braces define. -/
def ofInline (fields : List (List String × String × Toml)) : Option Toml := do
  let inner ← fields.foldlM
    (fun inner (path, name, value) => assign path name value .inline inner) []
  some (.table .inline inner)

end Toml

end RequestFlow

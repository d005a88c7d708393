/-
Graphs as tables of text: a header line that names the columns, and one line per
node or edge. Columns are found by name, so they may come in any order and
optional ones may be missing.
-/
import RequestFlow.Graph.Store

namespace RequestFlow

/-- Why a row of a table cannot be read. -/
structure RowFault where
  /-- Rows are counted from the header, which is the first. -/
  row : Nat
  /-- What the unreadable number is. -/
  part : String
  fault : NumeralFault
  deriving DecidableEq, Repr

def RowFault.message (fault : RowFault) : String :=
  "invalid " ++ fault.part ++ ": " ++ fault.fault.message

namespace Table

/-- Stands between two fields. -/
def delimiter : Char := '¿'

/-- The text of a field. A field in double quotes stands for what is between them, where a doubled
quote stands for one. -/
def unquote (field : List Char) : List Char :=
  let field := Chars.dropTailWhile (fun c => c == '\r' || c == '\n') field
  match field with
  | '"' :: rest => match rest.reverse with
    | '"' :: inner => Chars.undouble '"' inner.reverse
    | _ => field
  | _ => field

def splitRow (line : List Char) : List String :=
  (Chars.fields delimiter line).map fun field => String.ofList (unquote field)

/-- The name of a column, without the type that may follow it after a colon. -/
def columnName (field : String) : String :=
  match Chars.cutAt ':' field.toList with
  | (c :: head, some _) => String.ofList (c :: head)
  | _ => field

/-- The names of the columns in order. -/
structure Header where
  columns : List String
  deriving DecidableEq, Repr

namespace Header

def ofLine (line : List Char) : Header := ⟨(splitRow line).map columnName⟩

/-- Where a column stands. The last column of a name counts. -/
def position? (header : Header) (name : String) : Option Nat :=
  ((header.columns.zipIdx.filter (·.1 == name)).getLast?).map (·.2)

/-- The field in a column; empty if there is none. -/
def get (header : Header) (row : List String) (name : String) : String :=
  ((header.position? name).bind (row[·]?)).getD ""

/-- The column of that name with a colon before it, if there is one, or else without. -/
def marked (header : Header) (name : String) : String :=
  if header.columns.contains (":" ++ name) then ":" ++ name else name

end Header

/-- The rows of a table with their numbers. Blank lines count, but are no rows. -/
def numberedRows (lines : List (List Char)) : List (Nat × List String) :=
  ((lines.zipIdx 2).filter fun (line, _) => !line.all isBlank).map fun (line, row) =>
    (row, splitRow line)

/-- Reads each row of a table with its header. -/
def readRows {α : Type} (readRow : Header → Nat → List String → Except RowFault α) (text : String) :
    Except RowFault (List α) :=
  match Chars.lines text.toList with
  | [] => .ok []
  | header :: lines =>
    (numberedRows lines).mapM fun (row, fields) => readRow (.ofLine header) row fields

/-- A node id in a row. -/
def readId (row : Nat) (part field : String) : Except RowFault NodeId :=
  (NodeId.read field).mapError fun fault => ⟨row, part, fault⟩

def readFlag (field : String) : Bool := Text.upper (Text.trim field) == "TRUE"

def readNode (header : Header) (row : Nat) (fields : List String) : Except RowFault Node := do
  let get := header.get fields
  let id ← readId row "node id" (get "Id")
  let label := get "Label"
  .ok
    { id
      type := .ofName (get "Type")
      kind := get "Kind"
      code := get "Code"
      range := get "Range"
      location := get "Location"
      value := get "Value"
      raw := get "Raw"
      isAsync := readFlag (get "Async")
      computed := readFlag (get "Computed")
      label := if label.isEmpty then "AST" else label
      semanticType := get "SemanticType" }

def readEdge (header : Header) (row : Nat) (fields : List String) : Except RowFault Edge := do
  let get := header.get fields
  let source ← readId row "start id" (get (header.marked "START_ID"))
  let target ← readId row "end id" (get (header.marked "END_ID"))
  .ok
    { source
      target
      relation := .ofName (get (header.marked "TYPE"))
      relationType := get "RelationType"
      arguments := get "Arguments" }

def readNodes (text : String) : Except RowFault (List Node) := readRows readNode text

def readEdges (text : String) : Except RowFault (List Edge) := readRows readEdge text

/-! ## Writing edges -/

def edgeHeader : String := ":START_ID¿:END_ID¿:TYPE¿RelationType¿Arguments"

def edgeLine (edge : Edge) : String :=
  "¿".intercalate [toString edge.source, toString edge.target, edge.relation.name,
    edge.relationType, edge.arguments]

/-- The lines of edges, each with its end. -/
def edgeLines (edges : List Edge) : String :=
  String.join (edges.map fun edge => edgeLine edge ++ "\n")

/-- What is appended to a table of edges. A new table starts with its header. -/
def appendix (isNew : Bool) (edges : List Edge) : String :=
  (if isNew then edgeHeader ++ "\n" else "") ++ edgeLines edges

end Table

/-- The graph of nodes and edges as they were read; edges without both their nodes are dropped. -/
def Store.ofTables (nodes : List Node) (edges : List Edge) : Store :=
  let store := nodes.foldl Store.insertNode ∅
  (edges.filter fun edge => store.hasNode edge.source && store.hasNode edge.target).foldl
    Store.insertEdge store

end RequestFlow

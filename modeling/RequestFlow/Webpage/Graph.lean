/-
The graph of a webpage on disk: a table of nodes, a table of edges, and a side
table of the edges that analyses have added.
-/
import RequestFlow.Files
import RequestFlow.Graph.Table

namespace RequestFlow

inductive LoadFault where
  | unreadable (path : Path) (fault : FileFault)
  | malformed (path : Path) (fault : RowFault)
  deriving DecidableEq, Repr

def LoadFault.message : LoadFault → String
  | unreadable path fault => "failed to read '" ++ path ++ "': " ++ fault.message
  | malformed path fault =>
    "malformed row " ++ toString fault.row ++ " in '" ++ path ++ "': " ++ fault.message

namespace Store

def nodesFile : String := "nodes.csv"

def edgesFile : String := "rels.csv"

def ownersFile : String := "rels.points_to.csv"

variable {m : Type → Type} [Monad m] [Files m]

/-- Reads the rows of a table. -/
def readTable {α : Type} (rows : String → Except RowFault (List α)) (path : Path) :
    ExceptT LoadFault m (List α) := do
  match ← (Files.read path : m _) with
  | .error fault => throw (.unreadable path fault)
  | .ok text => match rows text with
    | .error fault => throw (.malformed path fault)
    | .ok found => pure found

/-- Reads the graph in a folder, with the edges of the side table if there is one. -/
def load (folder : Path) : ExceptT LoadFault m Store := do
  let nodes ← readTable Table.readNodes (Path.under folder nodesFile)
  let edges ← readTable Table.readEdges (Path.under folder edgesFile)
  let ownersPath := Path.under folder ownersFile
  let owners ←
    if ← (Files.exists ownersPath : m _) then readTable Table.readEdges ownersPath else pure []
  pure (.ofTables nodes (edges ++ owners))

/-- Adds edges to the side table and gives its path. -/
def appendOwners (folder : Path) (edges : List Edge) : ExceptT LoadFault m Path := do
  let path := Path.under folder ownersFile
  let isNew := !(← (Files.exists path : m _))
  match ← (Files.append path (Table.appendix isNew edges) : m _) with
  | .ok () => pure path
  | .error fault => throw (.unreadable path fault)

end Store

end RequestFlow

/-
The questions the analyses put to a graph. A service is a store behind a
connection on which some questions may always fail; every analysis is written
against it, so a healthy store and an outage run the same code.
-/
import RequestFlow.Graph.Store

namespace RequestFlow

/-- A primitive question, with all that an outage can depend on. -/
inductive Query where
  | node (id : NodeId)
  | outgoing (id : NodeId) (relation : Option Relation)
  | incoming (id : NodeId) (relation : Option Relation)
  | matching (pattern : NodePattern)
  | createEdge (edge : Edge)
  deriving DecidableEq, Repr

structure Service where
  store : Store
  /-- The reason why a question fails, if it does. -/
  outage : Query → Option String

/-- A store on which every question is answered. -/
def Store.service (store : Store) : Service := ⟨store, fun _ => none⟩

namespace Service

/-- Answers a question, unless the outage covers it. -/
def ask {α : Type} (g : Service) (query : Query) (answer : α) : Except GraphFault α :=
  match g.outage query with
  | some reason => .error (.unavailable reason)
  | none => .ok answer

def node? (g : Service) (id : NodeId) : Except GraphFault (Option Node) :=
  g.ask (.node id) (g.store.node? id)

def outgoing (g : Service) (id : NodeId) (relation : Option Relation) :
    Except GraphFault (List Edge) :=
  g.ask (.outgoing id relation) (g.store.outgoing id relation)

def incoming (g : Service) (id : NodeId) (relation : Option Relation) :
    Except GraphFault (List Edge) :=
  g.ask (.incoming id relation) (g.store.incoming id relation)

def matching (g : Service) (pattern : NodePattern) : Except GraphFault (List Node) :=
  g.ask (.matching pattern) (g.store.matching pattern)

/-- The nodes of one kind. -/
def ofType (g : Service) (type : NodeType) : Except GraphFault (List Node) :=
  g.matching { type := some type }

/-- The node of that id, which has to exist. -/
def node (g : Service) (id : NodeId) : Except GraphFault Node := do
  match ← g.node? id with
  | some node => .ok node
  | none => .error (.missingNode id)

def parents (g : Service) (id : NodeId) (relation : Option Relation) :
    Except GraphFault (List Node) := do
  (← g.incoming id relation).mapM fun edge => g.node edge.source

def children (g : Service) (id : NodeId) (relation : Option Relation) :
    Except GraphFault (List Node) := do
  (← g.outgoing id relation).mapM fun edge => g.node edge.target

/-- The parent in the syntax tree, with the edge that leads down from it. -/
def astParent? (g : Service) (id : NodeId) : Except GraphFault (Option (Edge × Node)) := do
  match ← g.incoming id (some .ast) with
  | [] => .ok none
  | edge :: _ => .ok (some (edge, ← g.node edge.source))

/-- The children in the syntax tree with their edges, in insertion order. -/
def astChildren (g : Service) (id : NodeId) : Except GraphFault (List (Edge × Node)) := do
  (← g.outgoing id (some .ast)).mapM fun edge => do .ok (edge, ← g.node edge.target)

/-- Writes an edge. A failed write leaves the graph as it was. -/
def createEdge (g : Service) (edge : Edge) : Except GraphFault Service := do
  let store ← (← g.ask (.createEdge edge) (g.store.createEdge edge))
  .ok { g with store }

end Service

/-! ## Transactions -/

/-- Edge writes collected without repetition, to be applied in order. -/
structure Transaction where
  pending : List Edge := []
  deriving DecidableEq, Repr

namespace Transaction

def stage (t : Transaction) (edge : Edge) : Transaction :=
  if edge ∈ t.pending then t else ⟨t.pending ++ [edge]⟩

def ofEdges (edges : List Edge) : Transaction := edges.foldl stage {}

/-- Writes edges one after the other, up to the first that fails. -/
def writeAll (g : Service) : List Edge → Except GraphFault Unit × Service
  | [] => (.ok (), g)
  | edge :: rest => match g.createEdge edge with
    | .ok g => writeAll g rest
    | .error fault => (.error fault, g)

/-- Applies the writes and counts them. -/
def commit (t : Transaction) (g : Service) : Except GraphFault Nat × Service :=
  let (outcome, g) := writeAll g t.pending
  (outcome.map fun _ => t.pending.length, g)

end Transaction

/-! ## The way up -/

/-- The way from a node up the syntax tree: one step per ancestor, nearest first, ending at a root
or at a question that failed. -/
inductive Lineage where
  | root
  | broken (fault : GraphFault)
  | step (edge : Edge) (parent : Node) (rest : Lineage)
  deriving DecidableEq, Repr

namespace Service

/-- The way up with at most `fuel` questions for a parent. -/
def lineageUpTo (g : Service) : (fuel : Nat) → NodeId → Lineage
  | 0, _ => .root
  | fuel + 1, id => match g.astParent? id with
    | .error fault => .broken fault
    | .ok none => .root
    | .ok (some (edge, parent)) => .step edge parent (g.lineageUpTo fuel parent.id)

/-- The way up from a node. Ancestors in a tree are distinct nodes, so their number bounds it. -/
def lineage (g : Service) (id : NodeId) : Lineage := g.lineageUpTo (g.store.nodeCount + 1) id

end Service

namespace Lineage

/-- The nearest ancestor that satisfies `p`. -/
def find? (p : Node → Bool) : Lineage → Except GraphFault (Option Node)
  | root => .ok none
  | broken fault => .error fault
  | step _ parent rest => if p parent then .ok (some parent) else find? p rest

/-- The id at the top, starting from `id`. -/
def top (id : NodeId) : Lineage → Except GraphFault NodeId
  | root => .ok id
  | broken fault => .error fault
  | step _ parent rest => top parent.id rest

end Lineage

namespace Service

/-- `id` lies properly below `ancestor` in the syntax tree. -/
def isBelow (g : Service) (id ancestor : NodeId) : Except GraphFault Bool := do
  .ok (← (g.lineage id).find? (·.id == ancestor)).isSome

/-- The nearest function around a node. -/
def enclosingFunction? (g : Service) (id : NodeId) : Except GraphFault (Option Node) :=
  (g.lineage id).find? (·.type.isFunction)

end Service

end RequestFlow

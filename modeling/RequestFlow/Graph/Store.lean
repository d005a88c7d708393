/-
The in-memory graph: nodes in the order of their first insertion, edges in the
order of insertion, and the indices that answer queries. An index holds places
in one of the two arrays, and the proof fields say that it holds the right ones.
-/
import RequestFlow.Graph.Edge
import RequestFlow.Order
import Std.Data.TreeMap

namespace RequestFlow

open Std (TreeMap)

/-- The places of the elements that satisfy `p`, in order. -/
def places {α : Type} (p : α → Bool) (l : List α) : List Nat :=
  (l.zipIdx.filter (p ·.1)).map (·.2)

/-- A new element at the end adds its own place, if it satisfies `p`. -/
theorem places_concat {α : Type} {p : α → Bool} (l : List α) (a : α) :
    places p (l ++ [a]) = places p l ++ if p a then [l.length] else [] := by
  cases h : p a <;> simp [places, List.zipIdx_append, h]

/-- Why a graph query has no answer. -/
inductive GraphFault where
  | missingNode (id : NodeId)
  | unavailable (reason : String)
  deriving DecidableEq, Repr

def GraphFault.message : GraphFault → String
  | .missingNode id => "node " ++ toString id ++ " does not exist in the graph"
  | .unavailable reason => "graph backend unavailable: " ++ reason

structure Store where
  nodes : Array Node
  /-- Where the node of an id stands in `nodes`. -/
  slots : TreeMap NodeId Nat
  edges : Array Edge
  /-- Where the edges that leave a node stand in `edges`. -/
  bySource : TreeMap NodeId (Array Nat)
  /-- Where the edges that enter a node stand in `edges`. -/
  byTarget : TreeMap NodeId (Array Nat)
  /-- Where the edges written after loading stand in `edges`, in order. -/
  written : Array Nat
  slots_iff : ∀ id i, slots[id]? = some i ↔ (nodes[i]?).map Node.id = some id
  bySource_eq : ∀ id, (bySource.getD id #[]).toList = places (·.source == id) edges.toList
  byTarget_eq : ∀ id, (byTarget.getD id #[]).toList = places (·.target == id) edges.toList
  written_lt : ∀ i ∈ written, i < edges.size

namespace Store

def empty : Store where
  nodes := #[]
  slots := ∅
  edges := #[]
  bySource := ∅
  byTarget := ∅
  written := #[]
  slots_iff := by simp
  bySource_eq := by simp [places]
  byTarget_eq := by simp [places]
  written_lt := by simp

instance : Inhabited Store := ⟨empty⟩

instance : EmptyCollection Store := ⟨empty⟩

theorem slot_lt (store : Store) {id : NodeId} {i : Nat} (h : store.slots[id]? = some i) :
    i < store.nodes.size := by
  have := (store.slots_iff id i).mp h
  by_cases hi : i < store.nodes.size
  · exact hi
  · simp [Array.getElem?_eq_none (Nat.le_of_not_lt hi)] at this

/-- Inserts a node. An id keeps the place of its first insertion; the last content wins. -/
def insertNode (store : Store) (node : Node) : Store :=
  match h : store.slots[node.id]? with
  | some i =>
    { store with
      nodes := store.nodes.set i node (store.slot_lt h)
      slots_iff := by
        intro id j
        rw [store.slots_iff, Array.getElem?_set]
        by_cases hij : i = j
        · subst hij
          have := (store.slots_iff _ _).mp h
          simp [this]
        · simp [hij] }
  | none =>
    { store with
      nodes := store.nodes.push node
      slots := store.slots.insert node.id store.nodes.size
      slots_iff := by
        intro id j
        rw [TreeMap.getElem?_insert, Array.getElem?_push]
        by_cases hid : node.id = id
        · subst hid
          by_cases hj : j = store.nodes.size
          · simp [hj]
          · have hn := store.slots_iff node.id j
            rw [h] at hn
            simp only [reduceCtorEq, false_iff] at hn
            simp [hj, hn, Ne.symm hj]
        · have hc : compare node.id id ≠ .eq := by simpa using hid
          by_cases hj : j = store.nodes.size
          · have hs : (store.slots[id]? = some store.nodes.size) ↔ False := by
              rw [store.slots_iff]; simp
            simp [hj, hc, hid, hs]
          · simp [hj, hc, store.slots_iff] }

/-- An index with one more place under an id. -/
def addPlace (index : TreeMap NodeId (Array Nat)) (id : NodeId) (place : Nat) :
    TreeMap NodeId (Array Nat) :=
  index.insert id ((index.getD id #[]).push place)

/-- An index by one end of the edges stays one when the place of a new edge is added. -/
theorem addPlace_eq {index : TreeMap NodeId (Array Nat)} {key : Edge → NodeId} {edges : Array Edge}
    (h : ∀ id, (index.getD id #[]).toList = places (key · == id) edges.toList) (edge : Edge)
    (id : NodeId) : ((addPlace index (key edge) edges.size).getD id #[]).toList =
      places (key · == id) (edges.push edge).toList := by
  rw [addPlace, TreeMap.getD_insert, Array.toList_push, places_concat]
  by_cases hid : key edge = id
  · subst hid
    simp [h]
  · simp [hid, h]

/-- Appends an edge to the edge list and its place to both indices. -/
def insertEdge (store : Store) (edge : Edge) : Store :=
  { store with
    edges := store.edges.push edge
    bySource := addPlace store.bySource edge.source store.edges.size
    byTarget := addPlace store.byTarget edge.target store.edges.size
    bySource_eq := addPlace_eq store.bySource_eq edge
    byTarget_eq := addPlace_eq store.byTarget_eq edge
    written_lt := fun i hi => by
      have := store.written_lt i hi
      rw [Array.size_push]
      omega }

def ofLists (nodes : List Node) (edges : List Edge) : Store :=
  edges.foldl insertEdge (nodes.foldl insertNode empty)

def node? (store : Store) (id : NodeId) : Option Node :=
  store.slots[id]?.bind (store.nodes[·]?)

def hasNode (store : Store) (id : NodeId) : Bool := (store.node? id).isSome

def nodeCount (store : Store) : Nat := store.nodes.size

def edgeCount (store : Store) : Nat := store.edges.size

/-- The edges at some places. -/
def edgesAt (store : Store) (places : Array Nat) : List Edge :=
  places.toList.filterMap (store.edges[·]?)

/-- The edges written after loading, in order. -/
def created (store : Store) : Array Edge := (store.edgesAt store.written).toArray

/-- The edges of that family, or all of them. -/
def select (relation : Option Relation) (edges : List Edge) : List Edge :=
  edges.filter fun edge => relation.all (· == edge.relation)

/-- The edges that leave a node, in insertion order. -/
def outgoing (store : Store) (id : NodeId) (relation : Option Relation) : List Edge :=
  select relation (store.edgesAt (store.bySource.getD id #[]))

/-- The edges that enter a node, in insertion order. -/
def incoming (store : Store) (id : NodeId) (relation : Option Relation) : List Edge :=
  select relation (store.edgesAt (store.byTarget.getD id #[]))

/-- The nodes that match, in the order of their ids. -/
def matching (store : Store) (pattern : NodePattern) : List Node :=
  sortBy (fun a b => a.id ≤ b.id) (store.nodes.toList.filter pattern.matches)

def hasEdge (store : Store) (edge : Edge) : Bool :=
  (store.bySource.getD edge.source #[]).any fun i => store.edges[i]? == some edge

/-- Appends an edge that counts as written after loading. -/
def writeEdge (store : Store) (edge : Edge) : Store :=
  { store.insertEdge edge with
    written := store.written.push store.edges.size
    written_lt := fun i hi => by
      rw [insertEdge, Array.size_push]
      rcases Array.mem_push.mp hi with hi | rfl
      · have := store.written_lt i hi
        omega
      · omega }

/-- Writes an edge between two existing nodes, unless it is there already. -/
def createEdge (store : Store) (edge : Edge) : Except GraphFault Store :=
  if !store.hasNode edge.source then .error (.missingNode edge.source)
  else if !store.hasNode edge.target then .error (.missingNode edge.target)
  else if store.hasEdge edge then .ok store
  else .ok (store.writeEdge edge)

end Store

end RequestFlow

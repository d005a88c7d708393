/-
Names mentioned by a piece of code, each with the node it was last seen at.
-/
import RequestFlow.Graph.Node

namespace RequestFlow

/-- Names in the order of their first occurrence, each with the node of its last. -/
structure IdentifierMap where
  entries : List (String × NodeId) := []
  deriving DecidableEq, Repr, Inhabited

namespace IdentifierMap

def put (name : String) (origin : NodeId) : List (String × NodeId) → List (String × NodeId)
  | [] => [(name, origin)]
  | (other, node) :: rest =>
    if other = name then (other, origin) :: rest else (other, node) :: put name origin rest

/-- A name seen again keeps its place and moves to the new node. -/
def insert (map : IdentifierMap) (name : String) (origin : NodeId) : IdentifierMap :=
  ⟨put name origin map.entries⟩

def ofList (entries : List (String × NodeId)) : IdentifierMap :=
  entries.foldl (fun map (name, origin) => map.insert name origin) {}

/-- Inserts the entries of `other` in order. -/
def append (map other : IdentifierMap) : IdentifierMap :=
  other.entries.foldl (fun map (name, origin) => map.insert name origin) map

instance : Append IdentifierMap := ⟨append⟩

def get? (map : IdentifierMap) (name : String) : Option NodeId :=
  (map.entries.find? (·.1 == name)).map (·.2)

def contains (map : IdentifierMap) (name : String) : Bool := (map.get? name).isSome

def names (map : IdentifierMap) : List String := map.entries.map (·.1)

def size (map : IdentifierMap) : Nat := map.entries.length

def isEmpty (map : IdentifierMap) : Bool := map.entries.isEmpty

end IdentifierMap

end RequestFlow

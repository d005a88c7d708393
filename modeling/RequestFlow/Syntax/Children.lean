/-
The children of a node. An export with relation types names the role of each
child and may number siblings; an export without them lists children in reverse
order of declaration.
-/
import RequestFlow.Graph.Service

namespace RequestFlow

universe u

variable {α : Type u}

/-- Children below one node, each with its edge, in the order of the graph. -/
abbrev Children (α : Type u) := List (Edge × α)

namespace Children

/-- Some child has a relation type. -/
def isTyped (children : Children α) : Bool := children.any (!·.1.relationType.isEmpty)

/-- The children in order of declaration, when there are no relation types. -/
def positional (children : Children α) : List α := children.reverse.map (·.2)

/-- The child with that relation type, or without types the one at that position. -/
def one? (children : Children α) (relationType : String) (position : Option Nat) : Option α :=
  if children.isTyped then
    (children.find? (·.1.relationType == relationType)).map (·.2)
  else
    position.bind (children.positional[·]?)

/-- A numbered child: its index (its place when it carries none), its place, and itself. -/
def numbered (children : Children α) : List ((Nat × Nat) × Edge × α) :=
  children.zipIdx.map fun ((edge, child), i) => ((edge.argIndex?.getD i, i), edge, child)

/-- Lexicographic order of index and place. -/
def inOrder (a b : (Nat × Nat) × Edge × α) : Bool :=
  a.1.1 < b.1.1 || (a.1.1 == b.1.1 && a.1.2 ≤ b.1.2)

/-- The children with that relation type by index, or without types those after the first
`skip`; no `skip` leaves none of them. -/
def many (children : Children α) (relationType : String) (skip : Option Nat) : List α :=
  if children.isTyped then
    (sortBy inOrder (children.numbered.filter (·.2.1.relationType == relationType))).map (·.2.2)
  else
    match skip with
    | some skip => children.positional.drop skip
    | none => []

/-- All children in order of declaration. -/
def all (children : Children α) : List α :=
  if children.isTyped then children.map (·.2) else children.positional

end Children

namespace Service

/-- The child of `id` in that role, or at that position in a graph without relation types. -/
def child? (g : Service) (id : NodeId) (relationType : String) (position : Option Nat) :
    Except GraphFault (Option Node) := do
  .ok (Children.one? (← g.astChildren id) relationType position)

/-- The children of `id` in that role, in order. -/
def childrenIn (g : Service) (id : NodeId) (relationType : String) (skip : Option Nat) :
    Except GraphFault (List Node) := do
  .ok (Children.many (← g.astChildren id) relationType skip)

/-- The property name of a member expression, as `open` in `x.open` and in `x["open"]`. -/
def memberProperty? (g : Service) (member : Node) : Except GraphFault (Option String) := do
  if member.type = .memberExpression then
    match ← g.child? member.id "property" (some 1) with
    | none => .ok none
    | some property => match property.type with
      | .identifier => .ok (if member.computed then none else some property.code)
      | .literal => .ok (some property.value)
      | _ => .ok none
  else .ok none

end Service

end RequestFlow

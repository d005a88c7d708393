/-
Program slices: pieces of code that a traced value comes from, and the tags
that say in which call they were found.
-/
import RequestFlow.Syntax.Rendered

namespace RequestFlow

/-- Rendered code, what it mentions, and where it stands. -/
structure Slice where
  code : String := ""
  literals : List String := []
  identifiers : List String := []
  location : String := ""
  node : Option NodeId := none
  deriving DecidableEq, Repr, Inhabited

namespace Slice

/-- Stands before the definition of a function that a slice calls. -/
def definitionMark : String := "<< FUNCTION_CALL_DEFINITION >>"

/-- Stands for the value of a parameter. -/
def parameterMark : String := "FUNCTION_ARGUMENT"

/-- Stands between a parameter and the argument that a call passes. -/
def invocationMark : String := "<--(invocation-value)--"

/-- Stands between `this` and an owner. -/
def pointsToMark : String := "--(points-to)-->"

/-- A slice that mentions nothing. -/
def bare (code : String) (origin : Node) : Slice :=
  { code, location := origin.location, node := some origin.id }

def ofRendered (code : String) (rendered : Rendered) (origin : Node) : Slice :=
  { code, literals := rendered.literals, identifiers := rendered.identifiers.names,
    location := origin.location, node := some origin.id }

end Slice

/-- Puts a scope tag, when there is one, before a text. -/
def inScope (scope text : String) : String :=
  if scope.isEmpty then text else scope ++ " " ++ text

/-- The tag of slices found at a call. -/
def callScope (call : NodeId) : String := "[scope-id=" ++ toString call ++ "]"

/-- The tag of names defined where a call stands. -/
def definitionScope (call : NodeId) : String := "[def-scope-id=" ++ toString call ++ "]"

/-- Slices in the order of discovery, no two with the same code and location. -/
structure SliceSet where
  slices : List Slice := []
  deriving DecidableEq, Repr, Inhabited

namespace SliceSet

def contains (set : SliceSet) (slice : Slice) : Bool :=
  set.slices.any fun s => s.code == slice.code && s.location == slice.location

def push (set : SliceSet) (slice : Slice) : SliceSet :=
  if set.contains slice then set else ⟨set.slices ++ [slice]⟩

def size (set : SliceSet) : Nat := set.slices.length

end SliceSet

end RequestFlow

/-
Stable sorting: elements that the order does not separate keep their places.
-/

namespace RequestFlow

universe u

variable {α : Type u}

/-- Puts `a` before the first element that `le` allows after it. -/
def insertBy (le : α → α → Bool) (a : α) : List α → List α
  | [] => [a]
  | b :: l => if le a b then a :: b :: l else b :: insertBy le a l

def sortBy (le : α → α → Bool) : List α → List α
  | [] => []
  | a :: l => insertBy le a (sortBy le l)

/-- Drops each element for which `same` holds with the one kept just before it. -/
def dedupNext (same : α → α → Bool) : List α → List α
  | [] => []
  | a :: l => a :: keep a l
where
  keep (a : α) : List α → List α
    | [] => []
    | b :: l => if same b a then keep a l else b :: keep b l

/-- The elements in the order of their first occurrences. -/
def firsts [DecidableEq α] : List α → List α :=
  List.foldl (fun seen a => if a ∈ seen then seen else seen ++ [a]) []

end RequestFlow

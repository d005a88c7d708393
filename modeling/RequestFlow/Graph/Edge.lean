/-
Edges of a hybrid property graph: syntax tree, control flow, data dependency,
calls, event registrations and the owners of `this`.
-/
import RequestFlow.Graph.Node
import RequestFlow.Text.Pieces
import RequestFlow.Text.Word

namespace RequestFlow

/-- Family of an edge. Event dependencies and unknown families keep their name. -/
inductive Relation where
  | ast
  | cfg
  | pdg
  | cg
  | erdg
  | erddg (name : String)
  | pointsTo
  | other (name : String)
  deriving DecidableEq, Repr, Inhabited

namespace Relation

def name : Relation → String
  | ast => "AST_parentOf"
  | cfg => "CFG_parentOf"
  | pdg => "PDG_parentOf"
  | cg => "CG_parentOf"
  | erdg => "ERDG"
  | pointsTo => "pointsTo"
  | erddg name | other name => name

/-- The families with one fixed name. -/
def fixed : List Relation := [ast, cfg, pdg, cg, erdg, pointsTo]

/-- The family of that name, with white space around it ignored. -/
def ofName (name : String) : Relation :=
  let name := Text.trim name
  match fixed.find? (·.name == name) with
  | some relation => relation
  | none => if Text.startsWith "ERDDG" name then erddg name else other name

/-- Event registration, dispatch and dependency edges. -/
def isEvent : Relation → Bool
  | erdg | erddg _ => true
  | _ => false

end Relation

structure Edge where
  source : NodeId
  target : NodeId
  relation : Relation
  relationType : String := ""
  arguments : String := ""
  deriving DecidableEq, Repr, Inhabited

namespace Edge

/-- The digits of an index `arg : digits` that starts right here; the key may end in a quote. -/
def indexHere? (s : List Char) : Option (List Char) := do
  let rest ← Chars.after? ['a', 'r', 'g'] s
  let rest := (Chars.after? ['"'] rest).getD rest
  let rest ← Chars.after? [':'] (Chars.trimStart rest)
  let digits := (Chars.trimStart rest).takeWhile isDecimal
  if digits.isEmpty then none else some digits

/-- The digits of the first index in the text. -/
def firstIndex? : List Char → Option (List Char)
  | [] => none
  | c :: s => match indexHere? (c :: s) with
    | some digits => some digits
    | none => firstIndex? s

/-- Position among its siblings that the edge carries in its arguments, as in `{"arg":2}`. Digits
of other scripts and numbers of more than 64 bits give none. -/
def argIndex? (edge : Edge) : Option Nat :=
  match firstIndex? edge.arguments.toList with
  | some digits => (Numeral.read digits).toOption
  | none => none

end Edge

/-- Selects nodes by kind, by code, or by both. -/
structure NodePattern where
  type : Option NodeType := none
  code : Option String := none
  deriving DecidableEq, Repr

def NodePattern.matches (pattern : NodePattern) (node : Node) : Bool :=
  pattern.type.all (· == node.type) && pattern.code.all (· == node.code)

end RequestFlow

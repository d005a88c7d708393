/-
The statement around a node, and the text of a callee.
-/
import RequestFlow.Syntax.Rendered

namespace RequestFlow

/-- `node`, below `parent` by `edge`, is a statement: it stands in a program, a block or the body of
a switch case, or it is the expression that an arrow function returns. -/
def isStatementChild (edge : Edge) (parent node : Node) : Bool :=
  match parent.type with
  | .program | .blockStatement => true
  | .switchCase => edge.relationType == "consequent"
  | .arrowFunctionExpression => edge.relationType == "body" && node.type != .blockStatement
  | _ => false

/-- The first of `node` and its ancestors that is a statement, or else the topmost of them. -/
def Lineage.statement (node : Node) : Lineage → Except GraphFault Node
  | root => .ok node
  | broken fault => .error fault
  | step edge parent rest =>
    if isStatementChild edge parent node then .ok node else statement parent rest

namespace Service

/-- The statement that contains a node. -/
def statement (g : Service) (id : NodeId) : Except GraphFault Node := do
  (g.lineage id).statement (← g.node id)

/-- The text of what a call invokes, such as `x.open`. -/
def calleeCode (g : Service) (call : NodeId) : Except GraphFault String := do
  match ← g.child? call "callee" (some 0) with
  | some callee => .ok (← g.renderNode callee).code
  | none => .ok ""

end Service

end RequestFlow

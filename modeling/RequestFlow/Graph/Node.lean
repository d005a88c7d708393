/-
Nodes of a hybrid property graph: the syntactic kinds of an ECMAScript tree and
what the exporter writes down about each node.
-/
import RequestFlow.Text.Blank
import RequestFlow.Text.Numeral

namespace RequestFlow

/-- Node ids are unsigned numbers chosen by the exporter. -/
abbrev NodeId := Nat

namespace NodeId

/-- Reads an id, with white space around it allowed. -/
def read (s : String) : Except NumeralFault NodeId := Numeral.read (Chars.trim s.toList)

end NodeId

/-- Syntactic kind of a node. A kind outside the vocabulary keeps its name. -/
inductive NodeType where
  | program
  | expressionStatement
  | variableDeclaration
  | variableDeclarator
  | assignmentExpression
  | binaryExpression
  | logicalExpression
  | unaryExpression
  | updateExpression
  | sequenceExpression
  | memberExpression
  | callExpression
  | newExpression
  | functionDeclaration
  | functionExpression
  | arrowFunctionExpression
  | blockStatement
  | ifStatement
  | conditionalExpression
  | tryStatement
  | catchClause
  | objectExpression
  | property
  | arrayExpression
  | literal
  | identifier
  | thisExpression
  | returnStatement
  | forStatement
  | forInStatement
  | whileStatement
  | doWhileStatement
  | switchStatement
  | switchCase
  | breakStatement
  | continueStatement
  | throwStatement
  | emptyStatement
  | other (name : String)
  deriving DecidableEq, Repr, Inhabited

namespace NodeType

def name : NodeType → String
  | program => "Program"
  | expressionStatement => "ExpressionStatement"
  | variableDeclaration => "VariableDeclaration"
  | variableDeclarator => "VariableDeclarator"
  | assignmentExpression => "AssignmentExpression"
  | binaryExpression => "BinaryExpression"
  | logicalExpression => "LogicalExpression"
  | unaryExpression => "UnaryExpression"
  | updateExpression => "UpdateExpression"
  | sequenceExpression => "SequenceExpression"
  | memberExpression => "MemberExpression"
  | callExpression => "CallExpression"
  | newExpression => "NewExpression"
  | functionDeclaration => "FunctionDeclaration"
  | functionExpression => "FunctionExpression"
  | arrowFunctionExpression => "ArrowFunctionExpression"
  | blockStatement => "BlockStatement"
  | ifStatement => "IfStatement"
  | conditionalExpression => "ConditionalExpression"
  | tryStatement => "TryStatement"
  | catchClause => "CatchClause"
  | objectExpression => "ObjectExpression"
  | property => "Property"
  | arrayExpression => "ArrayExpression"
  | literal => "Literal"
  | identifier => "Identifier"
  | thisExpression => "ThisExpression"
  | returnStatement => "ReturnStatement"
  | forStatement => "ForStatement"
  | forInStatement => "ForInStatement"
  | whileStatement => "WhileStatement"
  | doWhileStatement => "DoWhileStatement"
  | switchStatement => "SwitchStatement"
  | switchCase => "SwitchCase"
  | breakStatement => "BreakStatement"
  | continueStatement => "ContinueStatement"
  | throwStatement => "ThrowStatement"
  | emptyStatement => "EmptyStatement"
  | other name => name

/-- The kinds of the vocabulary. -/
def known : List NodeType :=
  [program, expressionStatement, variableDeclaration, variableDeclarator, assignmentExpression,
   binaryExpression, logicalExpression, unaryExpression, updateExpression, sequenceExpression,
   memberExpression, callExpression, newExpression, functionDeclaration, functionExpression,
   arrowFunctionExpression, blockStatement, ifStatement, conditionalExpression, tryStatement,
   catchClause, objectExpression, property, arrayExpression, literal, identifier, thisExpression,
   returnStatement, forStatement, forInStatement, whileStatement, doWhileStatement,
   switchStatement, switchCase, breakStatement, continueStatement, throwStatement, emptyStatement]

/-- The kind of that name, with white space around it ignored. -/
def ofName (name : String) : NodeType :=
  let name := Text.trim name
  (known.find? (·.name == name)).getD (other name)

def isKnown : NodeType → Bool
  | other _ => false
  | _ => true

/-- Function-like nodes: the definitions a call may lead to. -/
def isFunction : NodeType → Bool
  | functionDeclaration | functionExpression | arrowFunctionExpression => true
  | _ => false

end NodeType

/-- A node as the exporter describes it. -/
structure Node where
  id : NodeId
  type : NodeType
  kind : String := ""
  code : String := ""
  range : String := ""
  location : String := ""
  value : String := ""
  raw : String := ""
  isAsync : Bool := false
  computed : Bool := false
  label : String := "AST"
  semanticType : String := ""
  deriving DecidableEq, Repr, Inhabited

/-- The name that a property key stands for. -/
def Node.keyName (key : Node) : String := if key.type = .literal then key.value else key.code

end RequestFlow

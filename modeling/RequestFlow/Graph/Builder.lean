/-
Building graphs by hand: one function per form of an expression or statement.
Nodes get the ids 1, 2, 3, … in the order of their creation, and children hang
below their parent with the relation types and argument indices of an export.
-/
import RequestFlow.Graph.Store

namespace RequestFlow

structure Builder where
  store : Store := .empty
  nextId : NodeId := 1
  /-- The source line written into the location of new nodes. -/
  line : Nat := 1

abbrev Build := StateM Builder

namespace Build

def setLine (line : Nat) : Build Unit := modify ({ · with line })

/-- Adds a node of that kind; `describe` fills in the rest. -/
def node (type : NodeType) (describe : Node → Node := id) : Build NodeId := do
  let b ← get
  let node := describe { id := b.nextId, type, location := "line:" ++ toString b.line }
  set { b with nextId := b.nextId + 1, store := b.store.insertNode node }
  return b.nextId

def edge (edge : Edge) : Build Unit :=
  modify fun b => { b with store := b.store.insertEdge edge }

def child (parent child : NodeId) (relationType : String) : Build Unit :=
  edge { source := parent, target := child, relation := .ast, relationType }

def indexArguments (index : Nat) : String := "\x7b\"arg\":" ++ toString index ++ "\x7d"

/-- Hangs children below `parent` with their positions, counted from `index`. -/
def indexedChildren (parent : NodeId) (relationType : String) :
    (index : Nat) → List NodeId → Build Unit
  | _, [] => return
  | index, c :: rest => do
    edge { source := parent, target := c, relation := .ast, relationType,
           arguments := indexArguments index }
    indexedChildren parent relationType (index + 1) rest

def children (parent : NodeId) (relationType : String) : List NodeId → Build Unit
  | [] => return
  | c :: rest => do
    child parent c relationType
    children parent relationType rest

def childIf (parent : NodeId) (c : Option NodeId) (relationType : String) : Build Unit :=
  match c with
  | some c => child parent c relationType
  | none => return

/-! ## Expressions -/

def ident (name : String) : Build NodeId := node .identifier ({ · with code := name })

def this : Build NodeId := node .thisExpression ({ · with code := "this" })

/-- A string literal; its raw text keeps the quotes. -/
def literal (value : String) : Build NodeId :=
  node .literal ({ · with value, raw := "'" ++ value ++ "'" })

def number (value : Int) : Build NodeId :=
  node .literal ({ · with value := toString value, raw := toString value })

def member (object : NodeId) (property : String) : Build NodeId := do
  let property ← ident property
  let member ← node .memberExpression
  child member object "object"
  child member property "property"
  return member

def computedMember (object property : NodeId) : Build NodeId := do
  let member ← node .memberExpression ({ · with computed := true })
  child member object "object"
  child member property "property"
  return member

def members (object : NodeId) : List String → Build NodeId
  | [] => return object
  | property :: rest => do members (← member object property) rest

/-- The member chain of a dotted path such as `window.location.hash`. -/
def path (dotted : String) : Build NodeId := do
  match Text.fields '.' dotted with
  | [] => ident ""
  | first :: rest => members (← if first == "this" then this else ident first) rest

def invocation (type : NodeType) (callee : NodeId) (args : List NodeId) : Build NodeId := do
  let call ← node type
  child call callee "callee"
  indexedChildren call "arguments" 0 args
  return call

def call (callee : NodeId) (args : List NodeId) : Build NodeId :=
  invocation .callExpression callee args

def new (callee : NodeId) (args : List NodeId) : Build NodeId :=
  invocation .newExpression callee args

def methodCall (object : NodeId) (method : String) (args : List NodeId) : Build NodeId := do
  call (← member object method) args

def operator (type : NodeType) (op : String) (left right : NodeId) : Build NodeId := do
  let node ← node type ({ · with code := op })
  child node left "left"
  child node right "right"
  return node

def assign (left right : NodeId) : Build NodeId := operator .assignmentExpression "=" left right

def binary (op : String) (left right : NodeId) : Build NodeId :=
  operator .binaryExpression op left right

def logical (op : String) (left right : NodeId) : Build NodeId :=
  operator .logicalExpression op left right

def update (op : String) (argument : NodeId) : Build NodeId := do
  let node ← node .updateExpression ({ · with code := op })
  child node argument "argument"
  return node

def unary (op : String) (argument : NodeId) : Build NodeId := do
  let node ← node .unaryExpression ({ · with code := op })
  child node argument "argument"
  return node

def conditional (test consequent alternate : NodeId) : Build NodeId := do
  let node ← node .conditionalExpression
  child node test "test"
  child node consequent "consequent"
  child node alternate "alternate"
  return node

def properties (object : NodeId) : List (String × NodeId) → Build Unit
  | [] => return
  | (key, value) :: rest => do
    let property ← node .property
    let key ← ident key
    child property key "key"
    child property value "value"
    child object property "properties"
    properties object rest

def object (entries : List (String × NodeId)) : Build NodeId := do
  let object ← node .objectExpression
  properties object entries
  return object

def array (elements : List NodeId) : Build NodeId := do
  let array ← node .arrayExpression
  indexedChildren array "elements" 0 elements
  return array

/-! ## Statements and functions -/

def block (body : List NodeId) : Build NodeId := do
  let block ← node .blockStatement
  children block "body" body
  return block

def parameters (function : NodeId) : (index : Nat) → List String → Build Unit
  | _, [] => return
  | index, name :: rest => do
    let param ← ident name
    edge { source := function, target := param, relation := .ast, relationType := "params",
           arguments := indexArguments index }
    parameters function (index + 1) rest

def function (type : NodeType) (name : Option String) (params : List String) (body : NodeId) :
    Build NodeId := do
  let function ← node type
  if let some name := name then
    child function (← ident name) "id"
  parameters function 0 params
  child function body "body"
  return function

def functionDecl (name : String) (params : List String) (body : List NodeId) : Build NodeId := do
  function .functionDeclaration (some name) params (← block body)

def functionExpr (name : Option String) (params : List String) (body : List NodeId) :
    Build NodeId := do
  function .functionExpression name params (← block body)

/-- An arrow function whose body is an expression. -/
def arrow (params : List String) (body : NodeId) : Build NodeId :=
  function .arrowFunctionExpression none params body

def exprStmt (expression : NodeId) : Build NodeId := do
  let stmt ← node .expressionStatement
  child stmt expression "expression"
  return stmt

def varDecl (kind name : String) (init : Option NodeId) : Build NodeId := do
  let decl ← node .variableDeclaration ({ · with kind })
  let declarator ← node .variableDeclarator
  let name ← ident name
  child declarator name "id"
  childIf declarator init "init"
  child decl declarator "declarations"
  return decl

def ifStmt (test consequent : NodeId) (alternate : Option NodeId) : Build NodeId := do
  let node ← node .ifStatement
  child node test "test"
  child node consequent "consequent"
  childIf node alternate "alternate"
  return node

def returnStmt (argument : Option NodeId) : Build NodeId := do
  let node ← node .returnStatement
  childIf node argument "argument"
  return node

def forStmt (init test update : Option NodeId) (body : NodeId) : Build NodeId := do
  let node ← node .forStatement
  childIf node init "init"
  childIf node test "test"
  childIf node update "update"
  child node body "body"
  return node

def tryStmt (block : NodeId) (handler : Option (String × NodeId)) (finalizer : Option NodeId) :
    Build NodeId := do
  let stmt ← node .tryStatement
  child stmt block "block"
  if let some (param, body) := handler then
    let clause ← node .catchClause
    let param ← ident param
    child clause param "param"
    child clause body "body"
    child stmt clause "handler"
  childIf stmt finalizer "finalizer"
  return stmt

def program (body : List NodeId) : Build NodeId := do
  let program ← node .program
  children program "body" body
  return program

/-! ## Edges beside the syntax tree -/

def cfg (source target : NodeId) : Build Unit := edge { source, target, relation := .cfg }

/-- A data dependency: `consumer` reads the value `producer` gives to `name`. -/
def pdg (producer consumer : NodeId) (name : String) : Build Unit :=
  edge { source := producer, target := consumer, relation := .pdg, arguments := name }

def cg (call definition : NodeId) : Build Unit :=
  edge { source := call, target := definition, relation := .cg }

/-- Registration of `handler` for events of the element that `selector` denotes. -/
def erdg (registration handler selector : NodeId) : Build Unit :=
  edge { source := registration, target := handler, relation := .erdg,
         arguments := "x___" ++ toString selector }

/-! ## Looking back -/

/-- The first child of `parent` with that relation type. -/
def childOf? (parent : NodeId) (relationType : String) : Build (Option NodeId) := do
  let edges := (← get).store.outgoing parent (some .ast)
  return (edges.find? (·.relationType == relationType)).map (·.target)

def bodyOf? (function : NodeId) : Build (Option NodeId) := childOf? function "body"

end Build

end RequestFlow

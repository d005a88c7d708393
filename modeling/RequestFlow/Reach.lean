/-
When a program point runs: on page load, from an event whose registration runs,
or never. A point inside a function runs when something that invokes the
function does; the search goes from function to function and enters each once.
-/
import RequestFlow.Syntax.Statement

namespace RequestFlow

/-- A registration that makes an event run the code. -/
structure Witness where
  /-- The call or assignment that registers. -/
  call : NodeId
  /-- The statement around it. -/
  top : NodeId
  /-- Its text, without function bodies. -/
  verdict : String
  deriving DecidableEq, Repr, Inhabited

inductive Reachability where
  | onPageLoad
  | unreachable
  /-- Never empty. -/
  | witnesses (list : List Witness)
  deriving DecidableEq, Repr, Inhabited

def Reachability.label : Reachability → String
  | onPageLoad => "onPageLoad"
  | unreachable => "unreachable"
  | witnesses list => toString list.length ++ " event witness(es)"

/-- Names of functions that register their argument for an event. -/
def eventRegistrations : List String :=
  ["addEventListener", "attachEvent", "on", "one", "bind", "live", "delegate", "ready", "load",
   "click", "dblclick", "submit", "change", "focus", "blur", "keydown", "keyup", "keypress",
   "mousedown", "mouseup", "mouseover", "mouseout", "hover", "scroll", "resize", "observe",
   "onClick"]

/-- How far above a function the call that receives it is looked for. -/
def argumentSearchDepth : Nat := 6

/-- How far above a function the property that stores it is looked for. -/
def propertySearchDepth : Nat := 8

/-- A property that holds an event handler. -/
def isHandlerName (name : String) : Bool := 2 < name.utf8ByteSize && Text.startsWith "on" name

/-- Kinds at which a look upward from a function stops. -/
def NodeType.isStatement : NodeType → Bool
  | .program | .blockStatement | .expressionStatement | .variableDeclaration | .returnStatement
  | .ifStatement => true
  | _ => false

/-- What may run a function: a node that runs it whenever it runs itself, or a registration. -/
inductive Step where
  | direct (node : NodeId)
  | registration (node : NodeId)
  deriving DecidableEq, Repr

/-- Collects steps up to the first question that fails. -/
abbrev Steps := ExceptT GraphFault (StateM (List Step))

namespace Steps

def ask {α : Type} (answer : Except GraphFault α) : Steps α := answer

def direct (node : NodeId) : Steps Unit := modify (· ++ [.direct node])

def registration (node : NodeId) : Steps Unit := modify (· ++ [.registration node])

end Steps

namespace Service

variable (g : Service)

/-- The call registers its argument for an event. -/
def isEventRegistration (call : Node) : Except GraphFault Bool := do
  match ← g.child? call.id "callee" (some 0) with
  | none => .ok false
  | some callee =>
    let name ←
      if callee.type = .identifier then .ok (some callee.code) else g.memberProperty? callee
    .ok (name.any eventRegistrations.contains)

/-- The assignment is to an `on<event>` property. -/
def isHandlerAssignment (assignment : Node) : Except GraphFault Bool := do
  match ← g.child? assignment.id "left" (some 0) with
  | none => .ok false
  | some left => .ok ((← g.memberProperty? left).any isHandlerName)

/-- A function passed to a call: registered by it, or else run when the call runs. -/
def passedTo (call : Node) : Steps Unit := do
  if ← Steps.ask (g.isEventRegistration call) then Steps.registration call.id
  else Steps.direct call.id

/-- Where a function expression is used: passed to a call, called at once, or assigned to an
`on<event>` property. -/
def usageSteps : (depth : Nat) → Lineage → Steps Unit
  | 0, _ => return
  | _ + 1, .root => return
  | _ + 1, .broken fault => throw fault
  | depth + 1, .step edge parent rest =>
    let invocation := parent.type = .callExpression ∨ parent.type = .newExpression
    if invocation ∧ edge.relationType = "arguments" then g.passedTo parent
    else if parent.type = .callExpression ∧ edge.relationType = "callee" then
      Steps.direct parent.id
    else if parent.type = .assignmentExpression ∧ edge.relationType = "right" then do
      if ← Steps.ask (g.isHandlerAssignment parent) then Steps.registration parent.id
    else if parent.type.isFunction || parent.type.isStatement then return
    else usageSteps depth rest

/-- The name that a function has of itself or from its declarator. -/
def functionName? (function : Node) : Except GraphFault (Option String) := do
  let id ←
    if function.type = .arrowFunctionExpression then .ok none
    else g.child? function.id "id" none
  match id with
  | some id => .ok (some id.code)
  | none => match ← g.astParent? function.id with
    | none => .ok none
    | some (edge, parent) =>
      if parent.type = .variableDeclarator ∧ edge.relationType = "init" then
        .ok ((← g.child? parent.id "id" (some 0)).map (·.code))
      else .ok none

/-- The call in `name.call(…)` or `name.apply(…)`. -/
def explicitInvocation? (member : Node) : Except GraphFault (Option Node) := do
  if (← g.memberProperty? member).any fun name => name == "call" || name == "apply" then
    .ok <| match ← g.astParent? member.id with
      | some (edge, call) =>
        if call.type = .callExpression ∧ edge.relationType = "callee" then some call else none
      | none => none
  else .ok none

/-- One mention of a function's name. -/
def referenceSteps (reference : Node) : Steps Unit := do
  match ← Steps.ask (g.astParent? reference.id) with
  | none => return
  | some (edge, parent) =>
    let invocation := parent.type = .callExpression ∨ parent.type = .newExpression
    if invocation ∧ edge.relationType = "arguments" then g.passedTo parent
    else if parent.type = .assignmentExpression ∧ edge.relationType = "right" then
      if ← Steps.ask (g.isHandlerAssignment parent) then Steps.registration parent.id
    else if parent.type = .memberExpression ∧ edge.relationType = "object" then
      if let some call ← Steps.ask (g.explicitInvocation? parent) then Steps.direct call.id

/-- Calls of a named function, and mentions of its name. -/
def namedSteps (function : Node) (name : String) : Steps Unit := do
  (← Steps.ask (g.incoming function.id (some .cg))).forM fun edge => Steps.direct edge.source
  let references ← Steps.ask (g.matching { type := some .identifier, code := some name })
  references.forM g.referenceSteps

/-- The name of the property that stores a function, unless it is an event handler. -/
def storedProperty? : (depth : Nat) → Lineage → Except GraphFault (Option String)
  | 0, _ => .ok none
  | _ + 1, .root => .ok none
  | _ + 1, .broken fault => .error fault
  | depth + 1, .step edge parent rest =>
    if parent.type = .property ∧ edge.relationType = "value" then do
      .ok ((← g.child? parent.id "key" (some 0)).map Node.keyName)
    else if parent.type = .assignmentExpression ∧ edge.relationType = "right" then do
      match ← g.child? parent.id "left" (some 0) with
      | none => .ok none
      | some left => .ok ((← g.memberProperty? left).filter (!isHandlerName ·))
    else if parent.type.isStatement then .ok none
    else storedProperty? depth rest

/-- One call, if it may call a function stored under that property name. -/
def propertyCallStep (property : String) (call : Node) : Steps Unit := do
  match ← Steps.ask (g.child? call.id "callee" (some 0)) with
  | none => return
  | some callee =>
    if (← Steps.ask (g.memberProperty? callee)) = some property then Steps.direct call.id

/-- The calls `x.name(…)` of a function stored under that property name. -/
def propertySteps (function : Node) : Steps Unit := do
  match ← Steps.ask (g.storedProperty? propertySearchDepth (g.lineage function.id)) with
  | none => return
  | some property =>
    (← Steps.ask (g.ofType .callExpression)).forM (g.propertyCallStep property)

/-- All that may run a function, in the order of the search. -/
def invocationSteps (function : Node) : Steps Unit := do
  (← Steps.ask (g.incoming function.id none)).forM fun edge =>
    if edge.relation.isEvent then Steps.registration edge.source else return
  g.usageSteps argumentSearchDepth (g.lineage function.id)
  if let some name ← Steps.ask (g.functionName? function) then g.namedSteps function name
  g.propertySteps function

/-- The steps of a function, and the question that failed after them, if one did. -/
def steps (function : Node) : List Step × Option GraphFault :=
  match (g.invocationSteps function).run.run [] with
  | (.ok (), steps) => (steps, none)
  | (.error fault, steps) => (steps, some fault)

end Service

/-! ## The search -/

structure Search where
  /-- Functions entered so far. -/
  visited : List NodeId := []
  witnesses : List Witness := []
  onPageLoad : Bool := false
  deriving DecidableEq, Repr

namespace Search

variable (g : Service) (enter : NodeId → Search → Except GraphFault Search)

/-- A registration counts when it runs itself. Whether it does is a search of its own, which enters
no function entered before. -/
def register (call : NodeId) (search : Search) : Except GraphFault Search := do
  if search.witnesses.any (·.call == call) then .ok search
  else
    let nested ← enter call { visited := search.visited }
    if nested.onPageLoad || !nested.witnesses.isEmpty then
      let top ← g.statement call
      let verdict := (← g.render call true).code
      .ok { search with witnesses := search.witnesses ++ [⟨call, top.id, verdict⟩] }
    else .ok search

def take (search : Search) : Step → Except GraphFault Search
  | .direct node => enter node search
  | .registration node => register g enter node search

/-- Enters the function around `node` and takes its steps. -/
def visit (node : NodeId) (search : Search) : Except GraphFault Search := do
  if search.onPageLoad then .ok search
  else match ← g.enclosingFunction? node with
    | none => .ok { search with onPageLoad := true }
    | some function =>
      if search.visited.contains function.id then .ok search
      else
        let (steps, fault) := g.steps function
        let search ← steps.foldlM (take g enter)
          { search with visited := function.id :: search.visited }
        match fault with
        | some fault => .error fault
        | none => .ok search

/-- The search with at most so many functions inside one another. -/
def enterUpTo (g : Service) : (fuel : Nat) → NodeId → Search → Except GraphFault Search
  | 0, _, search => .ok search
  | fuel + 1, node, search => visit g (enterUpTo g fuel) node search

def verdict (search : Search) : Reachability :=
  if search.onPageLoad then .onPageLoad
  else if search.witnesses.isEmpty then .unreachable
  else .witnesses search.witnesses

end Search

/-- When a node runs. No function is entered twice on one way, so their number bounds the search. -/
def Service.reach (g : Service) (node : NodeId) : Except GraphFault Reachability := do
  .ok (← Search.enterUpTo g (g.store.nodeCount + 1) node {}).verdict

end RequestFlow

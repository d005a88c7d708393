/-
Tracing a value back. The value of a name at a statement comes from the
statements that data dependencies lead back to; at a parameter the trace goes on
at the calls that bind it, and at `this` with its owners. Every pair of a name
and a statement is expanded once in a query, to a bounded depth and until a
deadline. The clock is read for each request.
-/
import RequestFlow.Call.Binding
import RequestFlow.Layout
import RequestFlow.Owner
import RequestFlow.Syntax.Statement
import RequestFlow.Trace.Builtins
import RequestFlow.Trace.Slice

namespace RequestFlow

/-- The name under which `this` flows between statements. -/
def thisVariable : String := "this"

/-- How deep a trace goes when nothing else is said. -/
def defaultMaxDepth : Nat := 100

/-- The time until a deadline: how often the clock is read before it has passed, if it ever does. -/
structure Deadline where
  readings : Option Nat := none
  deriving DecidableEq, Repr, Inhabited

namespace Deadline

def never : Deadline := {}

/-- A deadline that has passed already. -/
def past : Deadline := ⟨some 0⟩

def hasPassed (d : Deadline) : Bool := d.readings == some 0

/-- The time that is left after a reading of the clock. -/
def tick (d : Deadline) : Deadline := ⟨d.readings.map (· - 1)⟩

end Deadline

structure TraceOptions where
  maxDepth : Nat := defaultMaxDepth
  /-- Lay out slices that contain functions. -/
  layout : Bool := true
  /-- The time for a query. -/
  deadline : Deadline := .never
  /-- Write the owners of `this` into the graph. -/
  materialise : Bool := true
  deriving DecidableEq, Repr

/-- Why a query stopped early. -/
inductive Truncation where
  | depth
  | deadline
  deriving DecidableEq, Repr

/-- A tracer: the graph with the owners found so far, answers noted down so far, and the marks of
the query under way. -/
structure Tracer where
  resolver : Resolver
  /-- The call sites of functions. -/
  sites : List (NodeId × List CallSite) := []
  /-- The functions that calls lead to. -/
  targets : List (NodeId × Option NodeId) := []
  visited : List (String × NodeId) := []
  deepest : Nat := 0
  /-- The time that is left. -/
  deadline : Deadline := .never
  truncation : Option Truncation := none
  slices : SliceSet := {}

/-- A step of a trace. A failed step keeps the slices, marks and edges made before it. -/
abbrev Trace := ExceptT GraphFault (StateM Tracer)

/-- A name to be traced from a statement, in the scope of a call. -/
structure Request where
  name : String
  context : Node
  scope : String
  depth : Nat
  /-- Only declarations count as producers; so it is for the owners of `this`. -/
  declarations : Bool := false

namespace Tracer

def new (g : Service) : Tracer := { resolver := ⟨g, []⟩ }

def graph (t : Tracer) : Service := t.resolver.graph

/-- The tracer after a reading of the clock. -/
def tick (t : Tracer) : Tracer := { t with deadline := t.deadline.tick }

/-- The tracer where a request is about to be expanded. -/
def visit (t : Tracer) (r : Request) : Tracer :=
  { t with visited := (r.name, r.context.id) :: t.visited, deepest := max t.deepest (r.depth + 1) }

/-- The tracer at the start of a query. Marks of earlier queries are dropped; owners, noted answers
and depths stay. -/
def started (t : Tracer) (deadline : Deadline) (slices : SliceSet) : Tracer :=
  { t with visited := [], deadline, truncation := none, slices }

/-- What can be asked of a tracer: the value of a name, or of an occurrence of `this`. -/
inductive Target where
  | name (name : String)
  | this (node : NodeId)
  deriving DecidableEq, Repr

end Tracer

namespace Trace

/-- A question to the graph as it is now. -/
def ask {α : Type} (question : Service → Except GraphFault α) : Trace α := do
  question (← get).graph

def truncate (reason : Truncation) : Trace Unit :=
  modify ({ · with truncation := some reason })

/-- Reads the clock: whether the deadline has passed. -/
def expired : Trace Bool := modifyGet fun t => (t.deadline.hasPassed, t.tick)

/-- Answers from a table of earlier answers, or asks the graph and notes the answer down. -/
def remembered {α : Type} (table : Tracer → List (NodeId × α))
    (note : List (NodeId × α) → Tracer → Tracer) (question : Service → NodeId → Except GraphFault α)
    (id : NodeId) : Trace α := do
  match (table (← get)).lookup id with
  | some answer => return answer
  | none =>
    let answer ← ask (question · id)
    modify fun t => note ((id, answer) :: table t) t
    return answer

def emit (options : TraceOptions) (slice : Slice) : Trace Unit :=
  let slice :=
    if options.layout then { slice with code := Layout.formatSlice slice.code } else slice
  modify fun t => { t with slices := t.slices.push slice }

def resolve (options : TraceOptions) (this : NodeId) : Trace Resolution := do
  let t ← get
  let (outcome, resolver) := t.resolver.resolve options.materialise this
  set { t with resolver }
  outcome

end Trace

namespace Service

/-- The producers of `name` into a statement, in the order of the graph. -/
def producers (g : Service) (name : String) (context : NodeId) (declarations : Bool) :
    Except GraphFault (List Node) := do
  let edges := (← g.incoming context (some .pdg)).filter (Text.trim ·.arguments == name)
  let nodes ← edges.mapM fun edge => g.node edge.source
  .ok (nodes.filter fun node => !declarations || node.type == .variableDeclaration)

/-- The function whose parameters a producer stands for: itself, or the one whose body it is. -/
def parameterOwner? (g : Service) (producer : Node) : Except GraphFault (Option Node) := do
  if producer.type.isFunction then .ok (some producer)
  else if producer.type = .blockStatement then
    .ok (((← g.astParent? producer.id).map (·.2)).filter (·.type.isFunction))
  else .ok none

/-- The first function that call edges lead to. -/
def firstFunction? (g : Service) : List Edge → Except GraphFault (Option NodeId)
  | [] => .ok none
  | edge :: rest => do
    if (← g.node edge.target).type.isFunction then .ok (some edge.target)
    else g.firstFunction? rest

/-- The function a call leads to, when there is one. -/
def callTarget? (g : Service) (call : NodeId) : Except GraphFault (Option NodeId) := do
  g.firstFunction? (← g.outgoing call (some .cg))

/-- The call of which `origin` is the callee. -/
def invocation? (g : Service) (origin : NodeId) : Except GraphFault (Option NodeId) := do
  match ← g.astParent? origin with
  | none => .ok none
  | some (edge, call) =>
    if edge.relationType = "callee"
        ∧ (call.type = .callExpression ∨ call.type = .newExpression) then .ok (some call.id)
    else .ok none

end Service

namespace Trace

/-- What a trace needs to know beside the graph. -/
structure Setting where
  builtins : Builtins
  options : TraceOptions

variable (setting : Setting) (descend : Request → Trace Unit)

/-- The call sites of a function, extracted once. -/
def callSites (function : NodeId) : Trace (List CallSite) :=
  remembered (·.sites) (fun sites t => { t with sites }) Service.callSites function

/-- The definition that is invoked where `origin` is the callee of a call. Where the call leads is
found once. -/
def calledDefinition? (origin : NodeId) : Trace (Option Node) := do
  match ← ask (·.invocation? origin) with
  | none => return none
  | some call =>
    match ← remembered (·.targets) (fun targets t => { t with targets }) Service.callTarget? call with
    | none => return none
    | some target => return some (← ask (·.node target))

/-- Emits the code of `origin` behind a mark. -/
def emitMarked (scope mark : String) (origin : Node) : Trace Unit := do
  let rendered ← ask (·.renderNode origin)
  emit setting.options (.ofRendered (inScope scope (mark ++ " " ++ rendered.code)) rendered origin)

/-- One owner of `this`. A named owner is traced to its declaration. -/
def ownerStep (this : Node) (scope : String) (depth : Nat) (owner : Owner) : Trace Unit := do
  let mark := "this " ++ Slice.pointsToMark
  match owner with
  | .window => emit setting.options (.bare (inScope scope (mark ++ " window")) this)
  | .node id =>
    let owner ← ask (·.node id)
    emitMarked setting scope mark owner
    if owner.type = .identifier ∧ !setting.builtins.contains owner.code then
      let context ← ask (·.statement owner.id)
      descend { name := owner.code, context, scope, depth := depth + 1, declarations := true }

/-- An occurrence of `this`: its owners, its event targets, and then what flows in as `this`. -/
def thisOccurrence (this : NodeId) (context : Node) (scope : String) (depth : Nat) :
    Trace Unit := do
  let resolution ← resolve setting.options this
  let node ← ask (·.node this)
  resolution.methods.forM fun method => ownerStep setting descend node scope depth method.owner
  resolution.events.forM fun event => do
    emitMarked setting scope ("this " ++ Slice.pointsToMark) (← ask (·.node event))
  descend { name := thisVariable, context, scope, depth := depth + 1 }

/-- Traces the names of an argument from the statement of its call. -/
def argumentStep (argument : Argument) (statement : Node) (scope : String) (depth : Nat) :
    Trace Unit :=
  if argument.kind = .literal then return
  else argument.identifiers.entries.forM fun (name, origin) =>
    if name = thisIdentifier then thisOccurrence setting descend origin statement scope depth
    else if setting.builtins.contains name then return
    else descend { name, context := statement, scope, depth := depth + 1 }

/-- How the slice of a call site shows the argument. -/
def argumentText (call : NodeId) (argument : Argument) : String :=
  match argument.kind with
  | .literal => quote argument.code
  | .identifier => inScope (definitionScope call) argument.code
  | _ => argument.code

/-- One call site that binds the parameter `name`: the argument is shown, and traced unless `skip`
says otherwise. -/
def bindingStep (skip : Argument → Trace Bool) (name : String) (depth : Nat) (site : CallSite) :
    Trace Unit := do
  match site.get? name with
  | none => return
  | some argument =>
    let scope := callScope site.call
    let text := name ++ " " ++ Slice.invocationMark ++ " " ++ argumentText site.call argument
    emit setting.options
      { code := inScope scope text, literals := argument.literals,
        identifiers := argument.identifiers.names, location := site.location,
        node := some site.call }
    if ← skip argument then return
    let statement ← ask (·.statement site.call)
    argumentStep setting descend argument statement scope depth

/-- Whether a call inside `function` passes the parameter on under its own name. -/
def passedOn (name : String) (function : Node) (site : CallSite) (argument : Argument) :
    Trace Bool :=
  if argument.kind = .identifier ∧ argument.code = name then
    ask (·.isBelow site.call function.id)
  else return false

/-- One call site of `function`, where the name is a parameter. A recursive call that passes the
parameter on adds nothing and is not followed. -/
def siteStep (r : Request) (function : Node) (site : CallSite) : Trace Unit :=
  bindingStep setting descend (passedOn r.name function site) r.name r.depth site

/-- The name is a parameter of `function`, for which `producer` stands, with that step for each call
site. -/
def parameterStep (step : CallSite → Trace Unit) (r : Request) (producer function : Node) :
    Trace Unit := do
  let params ← ask (·.parameters function.id)
  if params.contains r.name then
    let text := r.name ++ " = " ++ Slice.parameterMark
    emit setting.options (.bare (inScope r.scope text) producer)
    let sites ← callSites function.id
    sites.forM step

/-- One name that a producing statement mentions. -/
def mentionStep (r : Request) (producer : Node) (name : String) (origin : NodeId) : Trace Unit := do
  if name = r.name then return
  if name = thisIdentifier then
    thisOccurrence setting descend origin producer r.scope r.depth
  else if setting.builtins.contains name then return
  else match ← calledDefinition? origin with
    | some definition => emitMarked setting r.scope Slice.definitionMark definition
    | none => descend { name, context := producer, scope := r.scope, depth := r.depth + 1 }

/-- An ordinary statement gives its own slice and the names it mentions. -/
def statementStep (r : Request) (producer : Node) : Trace Unit := do
  let rendered ← ask (·.renderNode producer)
  emit setting.options (.ofRendered (inScope r.scope rendered.code) rendered producer)
  rendered.identifiers.entries.forM fun (name, origin) =>
    mentionStep setting descend r producer name origin

/-- A producer, with that step for each call site of the function that it stands for. -/
def producerStep (step : Node → CallSite → Trace Unit) (r : Request) (producer : Node) :
    Trace Unit := do
  if producer.type = .program then return
  match ← ask (·.parameterOwner? producer) with
  | some function => parameterStep setting (step function) r producer function
  | none => statementStep setting descend r producer

/-- Goes through the producers of a request with that step. -/
def expansion (step : Node → Trace Unit) (r : Request) : Trace Unit := do
  let producers ← ask (·.producers r.name r.context.id r.declarations)
  producers.forM step

/-- Expands a request that is within the depth budget, with that step for each producer. -/
def expand (step : Node → Trace Unit) (r : Request) : Trace Unit := do
  if ← expired then truncate .deadline
  else if (← get).visited.contains (r.name, r.context.id) then return
  else
    modify (·.visit r)
    expansion step r

/-- Traces a request with so many levels left, with that step for each call site of a function. -/
def followBy (setting : Setting)
    (step : (Request → Trace Unit) → Request → Node → CallSite → Trace Unit) :
    (levels : Nat) → Request → Trace Unit
  | 0, _ => truncate .depth
  | levels + 1, r =>
    let descend := followBy setting step levels
    expand (producerStep setting descend (step descend r) r) r

/-- Traces a request with so many levels left. -/
def follow : (levels : Nat) → Request → Trace Unit := followBy setting (siteStep setting)

/-- Answers a query, if requests are followed in that way. -/
def answering (follow : (levels : Nat) → Request → Trace Unit) (target : Tracer.Target)
    (context : NodeId) : Trace Unit := do
  let context ← ask (·.node context)
  match target with
  | .name name => follow setting.options.maxDepth { name, context, scope := "", depth := 0 }
  | .this node =>
    thisOccurrence setting (follow (setting.options.maxDepth - 1)) node context "" 0

end Trace

/-- Answers a query, collecting slices into `slices`. -/
def Tracer.query (setting : Trace.Setting) (t : Tracer) (target : Target) (context : NodeId)
    (slices : SliceSet := {}) : Except GraphFault Unit × Tracer :=
  (Trace.answering setting (Trace.follow setting) target context).run.run
    (t.started setting.options.deadline slices)

end RequestFlow

/-
Owners of `this`. An occurrence of `this` points to the object its function is
attached to or called on, to the target an event handler is registered on, or
to the window when nothing else binds it. What has been found is written into
the graph as `pointsTo` edges, which later runs take for granted.
-/
import RequestFlow.Syntax.Rendered

namespace RequestFlow

inductive Owner where
  | window
  | node (id : NodeId)
  deriving DecidableEq, Repr

/-- An owner and the expression that establishes it: an assignment, a call or a property. -/
structure Attachment where
  top : NodeId
  owner : Owner
  deriving DecidableEq, Repr

/-- All that an occurrence of `this` may point to. -/
structure Resolution where
  methods : List Attachment := []
  /-- Targets of events that the function handles. -/
  events : List NodeId := []
  /-- Read back from stored edges. -/
  cached : Bool := false
  deriving DecidableEq, Repr, Inhabited

def Resolution.isEmpty (r : Resolution) : Bool := r.methods.isEmpty && r.events.isEmpty

/-- The node id in an event's arguments, as in `click___42`. -/
def decodeSelector? (arguments : String) : Option NodeId := do
  let id ← Chars.afterLast? ['_', '_', '_'] arguments.toList
  (Numeral.read (Chars.trim (Chars.trimChar '\x22' (Chars.trim id)))).toOption

/-! ## Stored edges -/

namespace Resolution

def topType : String := "top"

def ownerType : String := "owner"

def windowMark : String := "pointsTo=window"

def eventMark : String := "pointsTo=eventSelector"

def edge (this target : NodeId) (relationType arguments : String) : Edge :=
  { source := this, target, relation := .pointsTo, relationType, arguments }

/-- The edges that store one attachment: one for the window, two for any other owner. -/
def attachmentEdges (this : NodeId) (a : Attachment) : List Edge :=
  match a.owner with
  | .window => [edge this a.top topType windowMark]
  | .node owner => [edge this a.top topType "", edge this owner ownerType ""]

/-- The edges that store a resolution. -/
def edges (this : NodeId) (r : Resolution) : List Edge :=
  r.methods.flatMap (attachmentEdges this)
    ++ r.events.map fun event => edge this event ownerType eventMark

/-- The resolution that stored edges describe: the window first, then tops and owners paired by
position, then the events. Edges that describe nothing give none. -/
def ofEdges? (edges : List Edge) : Option Resolution :=
  let window := edges.find? fun e => e.relationType == topType && e.arguments == windowMark
  let tops := edges.filter fun e => e.relationType == topType && e.arguments != windowMark
  let owners := edges.filter fun e => e.relationType == ownerType && e.arguments != eventMark
  let events := edges.filter fun e => e.relationType == ownerType && e.arguments == eventMark
  let methods := window.toList.map (fun e => ⟨e.target, .window⟩)
    ++ (tops.zip owners).map fun (top, owner) => ⟨top.target, .node owner.target⟩
  let r : Resolution := ⟨firsts methods, firsts (events.map (·.target)), true⟩
  if r.isEmpty then none else some r

end Resolution

/-! ## Finding owners -/

namespace Service

/-- The nearest function around a node that has a `this` of its own; arrow functions have none. -/
def thisFunction? (g : Service) (id : NodeId) : Except GraphFault (Option Node) :=
  (g.lineage id).find? fun node =>
    node.type == .functionDeclaration || node.type == .functionExpression

def isListenerMethod (name : String) : Bool := name == "addEventListener" || name == "attachEvent"

def isBindingMethod (name : String) : Bool := name == "call" || name == "apply" || name == "bind"

/-- The object of a member expression whose property satisfies `p`. -/
def objectIf? (g : Service) (member : Option Node) (p : String → Bool) :
    Except GraphFault (Option Node) := do
  match member with
  | none => .ok none
  | some member =>
    if (← g.memberProperty? member).any p then g.child? member.id "object" (some 0) else .ok none

/-- Selectors of the registration edges into a function, as far as they name existing nodes. -/
def selectors (g : Service) : List Edge → Except GraphFault (List NodeId)
  | [] => .ok []
  | edge :: rest => do
    match decodeSelector? edge.arguments with
    | none => g.selectors rest
    | some selector => match ← g.node? selector with
      | none => g.selectors rest
      | some _ => .ok (selector :: (← g.selectors rest))

/-- The target of `target.on<event> = function` or `target.addEventListener(event, function)`. -/
def handlerTarget? (g : Service) (function : Node) : Except GraphFault (Option Node) := do
  match ← g.astParent? function.id with
  | none => .ok none
  | some (edge, parent) =>
    if parent.type = .assignmentExpression ∧ edge.relationType = "right" then
      g.objectIf? (← g.child? parent.id "left" (some 0)) (Text.startsWith "on")
    else if parent.type = .callExpression ∧ edge.relationType = "arguments" then
      g.objectIf? (← g.child? parent.id "callee" (some 0)) isListenerMethod
    else .ok none

/-- The targets of the events that a function handles. -/
def eventOwners (g : Service) (function : Node) : Except GraphFault (List NodeId) := do
  let selected ← g.selectors (← g.incoming function.id (some .erdg))
  let target ← g.handlerTarget? function
  .ok (selected ++ (target.map (·.id)).toList)

/-- The name of a function, and the assignment or declarator that holds it. -/
def functionBinding (g : Service) (function : Node) :
    Except GraphFault (Option String × Option Node) := do
  if function.type = .functionDeclaration then
    .ok ((← g.child? function.id "id" (some 0)).map (·.code), none)
  else match ← g.astParent? function.id with
    | none => .ok (none, none)
    | some (edge, parent) =>
      if parent.type = .variableDeclarator ∧ edge.relationType = "init" then
        .ok ((← g.child? parent.id "id" (some 0)).map (·.code), some parent)
      else if parent.type = .assignmentExpression ∧ edge.relationType = "right" then
        let left ← g.child? parent.id "left" (some 0)
        .ok ((left.filter (·.type == .identifier)).map (·.code), some parent)
      else .ok (none, none)

/-- The owner in `object.property = function`, unless the property is an event handler. -/
def assignedOwner (g : Service) (binding : Option Node) : Except GraphFault (List Attachment) := do
  match binding with
  | none => .ok []
  | some binding =>
    if binding.type = .assignmentExpression then
      match ← g.child? binding.id "left" (some 0) with
      | none => .ok []
      | some left =>
        let handler := (← g.memberProperty? left).any (Text.startsWith "on")
        if left.type = .memberExpression ∧ !handler then
          .ok ((← g.child? left.id "object" (some 0)).map fun object =>
            ⟨binding.id, .node object.id⟩).toList
        else .ok []
    else .ok []

/-- The owner in one assignment `object.property = name`. -/
def namedOwner (g : Service) (name : String) (assignment : Node) :
    Except GraphFault (List Attachment) := do
  let right ← g.child? assignment.id "right" (some 1)
  if right.any fun right => right.type == .identifier && right.code == name then
    match ← g.child? assignment.id "left" (some 0) with
    | none => .ok []
    | some left =>
      if left.type = .memberExpression then
        .ok ((← g.child? left.id "object" (some 0)).map fun object =>
          ⟨assignment.id, .node object.id⟩).toList
      else .ok []
  else .ok []

/-- The receiver in one call `name.call(receiver)`, or with `apply` or `bind`. -/
def receiverOwner (g : Service) (name : String) (call : Node) :
    Except GraphFault (List Attachment) := do
  match ← g.child? call.id "callee" (some 0) with
  | none => .ok []
  | some callee =>
    if (← g.memberProperty? callee).any isBindingMethod then
      let target ← g.child? callee.id "object" (some 0)
      if target.any fun target => target.type == .identifier && target.code == name then
        match ← g.childrenIn call.id "arguments" (some 1) with
        | receiver :: _ => .ok [⟨call.id, .node receiver.id⟩]
        | [] => .ok []
      else .ok []
    else .ok []

/-- The variable or member that holds the object in which the function is a property value. -/
def objectOwner (g : Service) (function : Node) : Except GraphFault (List Attachment) := do
  match ← g.astParent? function.id with
  | none => .ok []
  | some (edge, property) =>
    if property.type = .property ∧ edge.relationType = "value" then
      match ← g.astParent? property.id with
      | none => .ok []
      | some (_, object) => match ← g.astParent? object.id with
        | none => .ok []
        | some (edge, holder) =>
          let qualifier ←
            if holder.type = .variableDeclarator ∧ edge.relationType = "init" then
              g.child? holder.id "id" (some 0)
            else if holder.type = .assignmentExpression ∧ edge.relationType = "right" then
              g.child? holder.id "left" (some 0)
            else .ok none
          .ok (qualifier.map fun q => ⟨property.id, .node q.id⟩).toList
    else .ok []

/-- The objects a function is attached to or called on. -/
def methodOwners (g : Service) (function : Node) : Except GraphFault (List Attachment) := do
  let (name, binding) ← g.functionBinding function
  let assigned ← g.assignedOwner binding
  let named ← match name with
    | none => .ok []
    | some name =>
      let assignments ← (← g.ofType .assignmentExpression).mapM (g.namedOwner name)
      let receivers ← (← g.ofType .callExpression).mapM (g.receiverOwner name)
      .ok (assignments.flatten ++ receivers.flatten)
  .ok (assigned ++ named ++ (← g.objectOwner function))

/-- What an occurrence of `this` points to, from the tree alone. -/
def computeOwners (g : Service) (this : NodeId) : Except GraphFault Resolution := do
  match ← g.thisFunction? this with
  | none => .ok { methods := [⟨← (g.lineage this).top this, .window⟩] }
  | some function =>
    let events ← g.eventOwners function
    let methods ← g.methodOwners function
    let methods := if methods.isEmpty then [⟨function.id, .window⟩] else firsts methods
    .ok { methods, events := firsts events }

end Service

/-! ## Resolving -/

/-- The resolutions found so far. -/
abbrev Resolutions := List (NodeId × Resolution)

/-- A graph with the resolutions remembered about it. -/
structure Resolver where
  graph : Service
  known : Resolutions := []

namespace Resolver

/-- Reads stored edges, or computes the owners and, if asked to, stores them. -/
def find (materialise : Bool) (g : Service) (this : NodeId) :
    Except GraphFault Resolution × Service :=
  match g.outgoing this (some .pointsTo) with
  | .error fault => (.error fault, g)
  | .ok edges => match Resolution.ofEdges? edges with
    | some resolution => (.ok resolution, g)
    | none => match g.computeOwners this with
      | .error fault => (.error fault, g)
      | .ok resolution =>
        if materialise then
          let (outcome, g) := (Transaction.ofEdges (resolution.edges this)).commit g
          (outcome.map fun _ => resolution, g)
        else (.ok resolution, g)

/-- Resolves an occurrence of `this`. A resolution is found once and then remembered. -/
def resolve (materialise : Bool) (r : Resolver) (this : NodeId) :
    Except GraphFault Resolution × Resolver :=
  match r.known.lookup this with
  | some resolution => (.ok resolution, r)
  | none =>
    let (outcome, graph) := find materialise r.graph this
    match outcome with
    | .ok resolution => (.ok resolution, ⟨graph, (this, resolution) :: r.known⟩)
    | .error fault => (.error fault, { r with graph })

end Resolver

end RequestFlow

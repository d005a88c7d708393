/-
Which argument each parameter of a function receives at its call sites.
-/
import RequestFlow.Syntax.Rendered

namespace RequestFlow

inductive ArgumentKind where
  | literal
  | identifier
  | memberExpression
  | objectExpression
  | other
  deriving DecidableEq, Repr

def ArgumentKind.of (node : Node) : ArgumentKind :=
  match node.type with
  | .literal => .literal
  | .identifier => .identifier
  | .memberExpression => .memberExpression
  | .objectExpression => .objectExpression
  | _ => .other

/-- An argument as a parameter receives it. -/
structure Argument where
  node : NodeId
  kind : ArgumentKind
  /-- The value of a literal, the name of an identifier, or else the rendered expression. -/
  code : String
  literals : List String
  identifiers : IdentifierMap
  deriving DecidableEq, Repr

structure CallSite where
  call : NodeId
  location : String
  bindings : List (String × Argument)
  deriving DecidableEq, Repr

namespace CallSite

def key (site : CallSite) : String := toString site.call ++ "__Loc=" ++ site.location

def get? (site : CallSite) (param : String) : Option Argument :=
  (site.bindings.find? (·.1 == param)).map (·.2)

end CallSite

namespace Service

/-- The names of a function's parameters in order; patterns have none and are left out. -/
def parameters (g : Service) (function : NodeId) : Except GraphFault (List String) := do
  let params ← g.childrenIn function "params" (some 0)
  .ok ((params.filter (·.type == .identifier)).map (·.code))

def describeArgument (g : Service) (arg : Node) : Except GraphFault Argument :=
  match ArgumentKind.of arg with
  | .literal => .ok ⟨arg.id, .literal, arg.value, [arg.value], {}⟩
  | .identifier => .ok ⟨arg.id, .identifier, arg.code, [], IdentifierMap.insert {} arg.code arg.id⟩
  | kind => do
    let rendered ← g.renderNode arg
    .ok ⟨arg.id, kind, rendered.code, rendered.literals, rendered.identifiers⟩

/-- Pairs parameters with arguments by position. Excess arguments bind nothing; when there are
fewer arguments than parameters, the bindings are listed last first. -/
def bindArguments (g : Service) (call : Node) (params : List String) (args : List Node) :
    Except GraphFault CallSite := do
  let bindings ← (params.zip args).mapM fun (param, arg) => do .ok (param, ← g.describeArgument arg)
  .ok ⟨call.id, call.location, if args.length < params.length then bindings.reverse else bindings⟩

/-- The call and the receiver in `receiver.then(function)`: the function is called with the value
that the receiver resolves to. -/
def continuation? (g : Service) (function : NodeId) : Except GraphFault (Option (Node × Node)) := do
  match ← g.astParent? function with
  | none => .ok none
  | some (edge, call) =>
    if call.type = .callExpression ∧ edge.relationType = "arguments" then
      match ← g.child? call.id "callee" (some 0) with
      | none => .ok none
      | some callee =>
        if (← g.memberProperty? callee) = some "then" then
          .ok ((← g.child? callee.id "object" (some 0)).map fun receiver => (call, receiver))
        else .ok none
    else .ok none

/-- The call sites of a function with the arguments they pass: the calls the call graph knows, and
then the continuation the function may be. -/
def callSites (g : Service) (function : NodeId) : Except GraphFault (List CallSite) := do
  let params ← g.parameters function
  let sites ← (← g.incoming function (some .cg)).mapM fun edge => do
    let call ← g.node edge.source
    g.bindArguments call params (← g.childrenIn call.id "arguments" (some 1))
  match ← g.continuation? function with
  | some (call, receiver) => .ok (sites ++ [← g.bindArguments call params [receiver]])
  | none => .ok sites

end Service

end RequestFlow

/-
Sinks: the program points that issue a request, and the argument whose value an
attacker would want to control.
-/
import RequestFlow.Semantic.Type
import RequestFlow.Syntax.Rendered

namespace RequestFlow

inductive SinkFamily where
  | xhrOpen
  | windowOpen
  | fetch
  | ajax
  | asyncRequest
  | setForm
  | criticalImagesRun
  | ajaxSettings
  | xhrPost
  | webSocket
  | eventSource
  | locationAssign
  | srcAssign
  | xhrSend
  | setRequestHeader
  | ajaxData
  | ajaxHeaders
  deriving DecidableEq, Repr, Inhabited

namespace SinkFamily

/-- The families in the order of reports. -/
def all : List SinkFamily :=
  [xhrOpen, windowOpen, fetch, ajax, asyncRequest, setForm, criticalImagesRun, ajaxSettings,
   xhrPost, webSocket, eventSource, locationAssign, srcAssign, xhrSend, setRequestHeader,
   ajaxData, ajaxHeaders]

def index (family : SinkFamily) : Nat := all.idxOf family

def name : SinkFamily → String
  | xhrOpen => "XMLHttpRequest.open"
  | windowOpen => "window.open"
  | fetch => "fetch"
  | ajax => "$.ajax"
  | asyncRequest => "asyncRequest"
  | setForm => "Connect.setForm"
  | criticalImagesRun => "pagespeed.CriticalImages.Run"
  | ajaxSettings => "ajaxSettings"
  | xhrPost => "xhrPost"
  | webSocket => "WebSocket"
  | eventSource => "EventSource"
  | locationAssign => "window.location"
  | srcAssign => "element.src"
  | xhrSend => "XMLHttpRequest.send"
  | setRequestHeader => "XMLHttpRequest.setRequestHeader"
  | ajaxData => "$.ajax.data"
  | ajaxHeaders => "$.ajax.headers"

def ofName? (name : String) : Option SinkFamily := all.find? (·.name == name)

/-- The type of the value that flows into a sink of the family. -/
def semanticType : SinkFamily → SemanticType
  | windowOpen => .wrWinOpenUrl
  | webSocket => .wrWebsocketUrl
  | eventSource => .wrEventsourceUrl
  | locationAssign => .wrWinLocUrl
  | xhrSend => .wrReqBody
  | setRequestHeader | ajaxHeaders => .wrReqHeader
  | ajaxData => .wrReqParams
  | xhrOpen | fetch | ajax | asyncRequest | setForm | criticalImagesRun | ajaxSettings | xhrPost
  | srcAssign => .wrReqUrl

end SinkFamily

structure Sink where
  family : SinkFamily
  /-- The call, construction, assignment or settings object that issues the request. -/
  node : Node
  argument : Node
  deriving DecidableEq, Repr

namespace Sink

def key (sink : Sink) : String :=
  sink.family.name ++ "__nid=" ++ toString sink.node.id ++ "__Loc=" ++ sink.node.location

/-- A sink, if there is an argument for it. -/
def at? (family : SinkFamily) (node : Node) (argument : Option Node) : List Sink :=
  argument.toList.map fun argument => ⟨family, node, argument⟩

/-- Order of reports: by node, then by family. -/
def le (a b : Sink) : Bool :=
  a.node.id < b.node.id || (a.node.id == b.node.id && a.family.index ≤ b.family.index)

def same (a b : Sink) : Bool := a.node.id == b.node.id && a.family == b.family

end Sink

/-- Assignments to these change the page. -/
def locationTargets : List String :=
  ["location", "location.href", "window.location", "window.location.href", "document.location",
   "document.location.href"]

/-- What a scan leaves out, and the nodes it is restricted to, if any. -/
structure SinkScope where
  disabled : List SinkFamily := []
  only : Option (List NodeId) := none
  deriving DecidableEq, Repr

def SinkScope.wants (scope : SinkScope) (node : Node) : Bool := scope.only.all (·.contains node.id)

namespace Service

/-- The value of the first of these properties whose key has that name. -/
def valueIn? (g : Service) (name : String) : List Node → Except GraphFault (Option Node)
  | [] => .ok none
  | property :: rest => do
    match ← g.child? property.id "key" (some 0) with
    | none => g.valueIn? name rest
    | some key =>
      if key.keyName = name then g.child? property.id "value" (some 1) else g.valueIn? name rest

/-- The value of a property of an object literal. -/
def propertyValue? (g : Service) (object : Node) (name : String) :
    Except GraphFault (Option Node) := do
  g.valueIn? name (← g.childrenIn object.id "properties" (some 0))

/-- `$.ajax(settings)`: the url, and the data and headers of the settings. Settings that are not an
object literal, or have no url, count as the url. -/
def ajaxSinks (g : Service) (call : Node) : Option Node → Except GraphFault (List Sink)
  | none => .ok []
  | some settings => do
    if settings.type = .objectExpression then
      let url ← g.propertyValue? settings "url"
      let data ← g.propertyValue? settings "data"
      let headers ← g.propertyValue? settings "headers"
      .ok (Sink.at? .ajax call (some (url.getD settings)) ++ Sink.at? .ajaxData call data
        ++ Sink.at? .ajaxHeaders call headers)
    else .ok (Sink.at? .ajax call (some settings))

/-- `new WebSocket(url)` and `new EventSource(url)`. -/
def constructionSinks (g : Service) (call callee : Node) (args : List Node) :
    Except GraphFault (List Sink) := do
  let name ← if callee.type = .identifier then pure (some callee.code) else g.memberProperty? callee
  .ok <| match name with
    | some "WebSocket" => Sink.at? .webSocket call args[0]?
    | some "EventSource" => Sink.at? .eventSource call args[0]?
    | _ => []

/-- `receiver.method(args)` for the methods that issue requests. -/
def methodSinks (g : Service) (call : Node) (args : List Node) (method receiver : String) :
    Except GraphFault (List Sink) :=
  match method with
  | "open" =>
    .ok (if receiver = "window" then Sink.at? .windowOpen call args[0]?
      else Sink.at? .xhrOpen call args[1]?)
  | "fetch" => .ok (if receiver = "window" then Sink.at? .fetch call args[0]? else [])
  | "ajax" => g.ajaxSinks call args[0]?
  | "asyncRequest" => .ok (Sink.at? .asyncRequest call args[1]?)
  | "setForm" => .ok (Sink.at? .setForm call args[0]?)
  | "Run" =>
    .ok (if Text.endsWith "CriticalImages" receiver then Sink.at? .criticalImagesRun call args[1]?
      else [])
  | "send" => .ok (if receiver = "window" then [] else Sink.at? .xhrSend call args[0]?)
  | "setRequestHeader" => .ok (Sink.at? .setRequestHeader call args[1]?)
  | _ => .ok []

/-- The sinks that a call or construction is. -/
def invocationSinks (g : Service) (call : Node) : Except GraphFault (List Sink) := do
  match ← g.child? call.id "callee" (some 0) with
  | none => .ok []
  | some callee =>
    let args ← g.childrenIn call.id "arguments" (some 1)
    if call.type = .newExpression then g.constructionSinks call callee args
    else if callee.type = .identifier then
      .ok <| match callee.code with
        | "fetch" => Sink.at? .fetch call args[0]?
        | "xhrPost" => Sink.at? .xhrPost call args[1]?
        | _ => []
    else match ← g.memberProperty? callee with
      | none => .ok []
      | some method =>
        let receiver ← match ← g.child? callee.id "object" (some 0) with
          | some object => do pure (← g.renderNode object).code
          | none => pure ""
        g.methodSinks call args method receiver

/-- The sinks that an assignment is: to the page's location, or to a source attribute. -/
def assignmentSinks (g : Service) (assignment : Node) : Except GraphFault (List Sink) := do
  match ← g.child? assignment.id "left" (some 0) with
  | none => .ok []
  | some left =>
    let right ← g.child? assignment.id "right" (some 1)
    let target := (← g.renderNode left).code
    if locationTargets.contains target then .ok (Sink.at? .locationAssign assignment right)
    else if (← g.memberProperty? left) = some "src" then .ok (Sink.at? .srcAssign assignment right)
    else .ok []

/-- The object literal is stored under the name `ajaxSettings`. -/
def isAjaxSettings (g : Service) (object : Node) : Except GraphFault Bool := do
  match ← g.astParent? object.id with
  | none => .ok false
  | some (edge, parent) =>
    if parent.type = .property ∧ edge.relationType = "value" then
      .ok ((← g.child? parent.id "key" (some 0)).any fun key =>
        key.code == "ajaxSettings" || key.value == "ajaxSettings")
    else if parent.type = .assignmentExpression ∧ edge.relationType = "right" then
      match ← g.child? parent.id "left" (some 0) with
      | none => .ok false
      | some left => .ok ((← g.memberProperty? left) == some "ajaxSettings")
    else .ok false

/-- An object with its url, if the scan wants it and it holds settings. -/
def settingsOf (g : Service) (scope : SinkScope) (object : Node) :
    Except GraphFault (List (Node × Node)) := do
  if scope.wants object then
    if ← g.isAjaxSettings object then
      .ok ((← g.propertyValue? object "url").map fun url => (object, url)).toList
    else .ok []
  else .ok []

/-- One of the objects lies inside `object`. -/
def holdsAny (g : Service) (object : Node) : List NodeId → Except GraphFault Bool
  | [] => .ok false
  | other :: rest => do
    if other ≠ object.id then
      if ← g.isBelow other object.id then .ok true else g.holdsAny object rest
    else g.holdsAny object rest

/-- Settings objects; where they nest, only the innermost counts. -/
def settingsSinks (g : Service) (scope : SinkScope) : Except GraphFault (List Sink) := do
  let found := (← (← g.ofType .objectExpression).mapM (g.settingsOf scope)).flatten
  let ids := found.map (·.1.id)
  let sinks ← found.mapM fun (object, url) => do
    if ← g.holdsAny object ids then .ok [] else .ok (Sink.at? .ajaxSettings object (some url))
  .ok sinks.flatten

/-- All sinks of the graph within a scope, in the order of reports, each once. -/
def sinks (g : Service) (scope : SinkScope := {}) : Except GraphFault (List Sink) := do
  let calls ← ((← g.ofType .callExpression).filter scope.wants).mapM g.invocationSinks
  let constructions ← ((← g.ofType .newExpression).filter scope.wants).mapM g.invocationSinks
  let assignments ←
    ((← g.ofType .assignmentExpression).filter scope.wants).mapM g.assignmentSinks
  let settings ← g.settingsSinks scope
  let all := calls.flatten ++ constructions.flatten ++ assignments.flatten ++ settings
  let enabled := all.filter fun sink => !scope.disabled.contains sink.family
  .ok (dedupNext Sink.same (sortBy Sink.le enabled))

end Service

end RequestFlow

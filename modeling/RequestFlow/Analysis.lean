/-
The analysis of one webpage: every sink of its graph is traced back, tagged and
searched for what runs it. A failed question never stops the analysis; it marks
the flow as partial.
-/
import RequestFlow.Config
import RequestFlow.Report
import RequestFlow.Semantic.Fingerprint
import RequestFlow.Sink

namespace RequestFlow

/-- What is known of a webpage beside its graph. -/
structure Page where
  webpage : String := ""
  url : String := ""
  /-- Names that the page's own markup defines. -/
  sources : List String := []
  /-- The nodes to look for sinks at; everywhere if not given. -/
  sinkIds : Option (List NodeId) := none
  /-- The time until the deadline of the site or of the run, whichever comes first. -/
  deadline : Deadline := .never
  deriving DecidableEq, Repr, Inhabited

/-- The `document.<name>` sources among some names, by their short names. -/
def documentNames (sources : List String) : List String :=
  sources.filterMap (Text.after? "document.")

/-- An analysis ready to run on any webpage. -/
structure Engine where
  config : Config
  builtins : Builtins
  fingerprints : Fingerprints
  disabled : List SinkFamily

/-- Unknown sink families are ignored. -/
def Engine.ofConfig (config : Config) : Engine where
  config
  builtins := Builtins.defaults.extend config.extraBuiltins
  fingerprints :=
    let clobbered := config.clobbered.foldl Fingerprints.addClobbered Fingerprints.defaults
    config.documentVariables.foldl Fingerprints.addDocumentVariable clobbered
  disabled := config.disabled.filterMap SinkFamily.ofName?

/-- All that one run over a webpage needs to know. -/
structure Run where
  page : Page
  setting : Trace.Setting
  fingerprints : Fingerprints
  documentVariables : List String

namespace Engine

/-- A budget of no seconds has run out at the start. -/
def traceOptions (engine : Engine) (page : Page) : TraceOptions where
  maxDepth := engine.config.maxDepth
  layout := engine.config.layout
  deadline := if engine.config.runTimeout == 0 then .past else page.deadline
  materialise := engine.config.materialise

def run (engine : Engine) (page : Page) : Run where
  page
  setting := { builtins := engine.builtins, options := engine.traceOptions page }
  fingerprints := page.sources.foldl Fingerprints.addClobbered engine.fingerprints
  documentVariables := documentNames page.sources

def scope (engine : Engine) (page : Page) : SinkScope where
  disabled := engine.disabled
  only := page.sinkIds

end Engine

/-- The names traced so far for a flow. -/
structure FlowTrace where
  tracer : Tracer
  slices : SliceTable := {}
  types : TypeSet
  isPartial : Bool

namespace Run

variable (run : Run)

/-- The settings of a query in the time that is left. -/
def within (deadline : Deadline) : Trace.Setting :=
  { run.setting with options := { run.setting.options with deadline } }

/-- The tracer that a run starts with. -/
def tracer (g : Service) : Tracer :=
  { Tracer.new g with deadline := run.setting.options.deadline }

/-- What to ask of the tracer for a name in an argument, and the key of the answer. Names that are
taken for granted are not traced. -/
def target? (name : String) (origin : NodeId) : Option (Tracer.Target × String) :=
  if name = thisIdentifier then some (.this origin, thisVariable)
  else if run.setting.builtins.contains name then none
  else some (.name name, name)

/-- Traces one name of an argument from the statement of its sink. The clock runs on from name to
name. -/
def traceName (statement : NodeId) (trace : FlowTrace) (entry : String × NodeId) : FlowTrace :=
  match run.target? entry.1 entry.2 with
  | none => trace
  | some (target, key) =>
    let (outcome, tracer) :=
      trace.tracer.query (run.within trace.tracer.deadline) target statement
    let found := tracer.slices.slices
    let types := run.fingerprints.tagSlices found run.documentVariables
    { tracer
      slices := trace.slices.insert key (.ofSlices types found)
      types := trace.types.union types
      isPartial := trace.isPartial || !outcome.isOk || tracer.truncation.isSome }

/-- The flow of one sink. A part that cannot be had is left empty. -/
def flow (tracer : Tracer) (sink : Sink) : Flow × Tracer :=
  let g := tracer.graph
  let argument := g.renderNode sink.argument
  let code := g.renderNode sink.node
  let statement := g.statement sink.node.id
  let script := (g.lineage sink.node.id).top sink.node.id
  let rendered := argument.toOption.getD {}
  let statementId := (statement.toOption.getD sink.node).id
  let trace := rendered.identifiers.entries.foldl (run.traceName statementId)
    { tracer
      types := (run.fingerprints.tagCode rendered.code).insert sink.family.semanticType
      isPartial := !argument.isOk || !code.isOk || !statement.isOk || !script.isOk }
  let reachability := trace.tracer.graph.reach sink.node.id
  ({ webpage := run.page.webpage
     script := (script.toOption.map (toString ·)).getD ""
     types := trace.types
     node := sink.node.id
     statement := statementId
     location := sink.node.location
     sinkType := sink.family.name
     sinkCode := (code.toOption.map (·.code)).getD ""
     slices := trace.slices
     reachability := reachability.toOption.getD .unreachable
     isPartial := trace.isPartial || !reachability.isOk },
   trace.tracer)

/-- The flows of sinks, one after the other on one tracer. -/
def flows : Tracer → List Sink → List Flow × Tracer
  | tracer, [] => ([], tracer)
  | tracer, sink :: rest =>
    let (flow, tracer) := run.flow tracer sink
    let (others, tracer) := flows tracer rest
    (flow :: others, tracer)

end Run

/-- Analyses the graph of a webpage. Owners of `this` are written into the graph where the settings
ask for it. When the scan for sinks fails there are no flows. -/
def Engine.analyse (engine : Engine) (g : Service) (page : Page) : Report × Service :=
  match g.sinks (engine.scope page) with
  | .error _ => ({ url := page.url }, g)
  | .ok sinks =>
    let run := engine.run page
    let (flows, tracer) := run.flows (run.tracer g) sinks
    ({ url := page.url, flows }, tracer.graph)

end RequestFlow

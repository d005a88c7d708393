/-
The analysis of one webpage on two graphs side by side. On graphs that answer
alike every flow is the same. When some questions fail on one of them, each of
its flows that is not marked as partial is still the same: no answer that was
cut short is remembered for a later flow.
-/
import Mathlib.Data.List.Forall2
import RequestFlow.Analysis
import RequestFlow.Proofs.Owner.Resolver
import RequestFlow.Proofs.Reach.Search
import RequestFlow.Proofs.Sink
import RequestFlow.Proofs.Trace.Steps

namespace RequestFlow

variable {mode : Mode} {keep keep' : Bool} {b b' : Service} {K : Resolver → Resolver → Prop}

namespace Run

/-- The run, with or without writing owners into the graph. -/
def keeping (run : Run) (keep : Bool) : Run := { run with setting := run.setting.keeping keep }

variable {run : Run}

theorem honest_tracer (run : Run) (g : Service) : (run.tracer g).Honest g := ⟨.self g, nofun, nofun⟩

/-- What is asked for a name that an argument mentions exists. -/
theorem target?_held {entry : String × NodeId} (hm : b.Mentions entry) {target : Tracer.Target}
    {key : String} (ht : run.target? entry.1 entry.2 = some (target, key)) {context : NodeId}
    (hc : mode = .total → b.store.hasNode context = true) : target.Held mode b context := by
  refine ⟨hc, ?_⟩
  rintro id rfl
  unfold target? at ht
  split at ht
  · cases ht
    exact hm.hasNode
  · split at ht <;> cases ht

/-- A flow in the making, with the outcome of one query added. -/
def add (run : Run) (key : String) (f : FlowTrace) (asked : Except GraphFault Unit × Tracer) :
    FlowTrace :=
  let found := asked.2.slices.slices
  let types := run.fingerprints.tagSlices found run.documentVariables
  { tracer := asked.2
    slices := f.slices.insert key (.ofSlices types found)
    types := f.types.union types
    isPartial := f.isPartial || !asked.1.isOk || asked.2.truncation.isSome }

theorem traceName_eq (run : Run) (keep : Bool) (statement : NodeId) (f : FlowTrace)
    (entry : String × NodeId) :
    (run.keeping keep).traceName statement f entry = match run.target? entry.1 entry.2 with
      | none => f
      | some (target, key) => run.add key f
          (f.tracer.query ((run.within f.tracer.deadline).keeping keep) target statement) := rfl

/-- The answers that a flow starts from. -/
structure Parts where
  argument : Except GraphFault Rendered
  code : Except GraphFault Rendered
  statement : Except GraphFault Node
  script : Except GraphFault NodeId

namespace Parts

def of (g : Service) (sink : Sink) : Parts where
  argument := g.renderNode sink.argument
  code := g.renderNode sink.node
  statement := g.statement sink.node.id
  script := (g.lineage sink.node.id).top sink.node.id

/-- The names that the argument mentions. -/
def names (parts : Parts) : List (String × NodeId) :=
  (parts.argument.toOption.getD {}).identifiers.entries

end Parts

/-- The flow of a sink before its names are traced. -/
def start (run : Run) (parts : Parts) (tracer : Tracer) (sink : Sink) : FlowTrace where
  tracer
  types := (run.fingerprints.tagCode (parts.argument.toOption.getD {}).code).insert
    sink.family.semanticType
  isPartial := !parts.argument.isOk || !parts.code.isOk || !parts.statement.isOk ||
    !parts.script.isOk

/-- The flow of a sink after its names have been traced. -/
def traced (run : Run) (parts : Parts) (tracer : Tracer) (sink : Sink) : FlowTrace :=
  parts.names.foldl (run.traceName (parts.statement.toOption.getD sink.node).id)
    (run.start parts tracer sink)

def finish (run : Run) (parts : Parts) (sink : Sink) (f : FlowTrace)
    (reachability : Except GraphFault Reachability) : Flow where
  webpage := run.page.webpage
  script := (parts.script.toOption.map (toString ·)).getD ""
  types := f.types
  node := sink.node.id
  statement := (parts.statement.toOption.getD sink.node).id
  location := sink.node.location
  sinkType := sink.family.name
  sinkCode := (parts.code.toOption.map (·.code)).getD ""
  slices := f.slices
  reachability := reachability.toOption.getD .unreachable
  isPartial := f.isPartial || !reachability.isOk

theorem flow_eq (run : Run) (t : Tracer) (sink : Sink) :
    run.flow t sink =
      let f := run.traced (Parts.of t.graph sink) t sink
      (run.finish (Parts.of t.graph sink) sink f (f.tracer.graph.reach sink.node.id), f.tracer) :=
  rfl

section Keeps

variable {J : Tracer → Prop} (run)
  (hquery : ∀ {t : Tracer} (target : Tracer.Target) (statement : NodeId), J t →
    J (t.query (run.within t.deadline) target statement).2)
include hquery

theorem traceNames_keeps (statement : NodeId) {f : FlowTrace} (hf : J f.tracer)
    (entries : List (String × NodeId)) : J (entries.foldl (run.traceName statement) f).tracer := by
  induction entries generalizing f with
  | nil => exact hf
  | cons entry rest ih =>
    refine ih ?_
    unfold traceName
    split
    · exact hf
    · exact hquery _ statement hf

/-- What every query keeps, the flow of a sink keeps. -/
theorem flow_keeps {t : Tracer} (ht : J t) (sink : Sink) : J (run.flow t sink).2 :=
  run.traceNames_keeps hquery _ ht (Parts.of t.graph sink).names

theorem flows_keeps {t : Tracer} (ht : J t) (sinks : List Sink) : J (run.flows t sinks).2 := by
  induction sinks generalizing t with
  | nil => exact ht
  | cons sink rest ih => exact ih (run.flow_keeps hquery ht sink)

end Keeps

/-- On graphs that answer alike a flow starts from the same answers. -/
theorem Parts.of_alike {g h : Service} (a : Service.Alike .same g h) {sink : Sink}
    (hs : sink.Held g) : Parts.of g sink = Parts.of h sink := by
  have hargument := (Service.renderNode_agree a hs.argument false).eq
  have hcode := (Service.renderNode_agree a hs.node false).eq
  have hstatement : g.statement sink.node.id = h.statement sink.node.id :=
    (Service.statement_agree a nofun).eq
  have hscript := ((Service.lineage_alike a sink.node.id).top_agree sink.node.id).eq
  simp only [of, hargument, hcode, hstatement, hscript]

/-- The names of an argument stand at nodes of the graph. -/
theorem Parts.mentions {g : Service} (a : Service.Alike .same b g) {sink : Sink} (hs : sink.Held b) :
    ∀ entry ∈ (Parts.of g sink).names, b.Mentions entry := by
  intro entry hm
  have hr := (Service.renderNode_agree a hs.argument false).eq
  rw [Parts.names, Parts.of, ← hr] at hm
  cases hok : b.renderNode sink.argument with
  | error fault =>
    rw [hok] at hm
    cases hm
  | ok rendered =>
    rw [hok] at hm
    exact ((Service.renderNode_agree (Service.Alike.self b) hs.argument false).of_ok hok).2 entry hm

/-! ## Graphs that answer alike -/

section Same

/-- Two flows in the making, with the same found so far. -/
structure Twins (b b' : Service) (K : Resolver → Resolver → Prop) (f f' : FlowTrace) : Prop where
  tracers : f.tracer.Abreast b b' K f'.tracer
  slices : f.slices = f'.slices
  types : f.types = f'.types
  isPartial : f.isPartial = f'.isPartial

variable (ab : Service.Alike .same b b') (hK : Resolver.Bridge .same keep keep' b b' K)
include ab hK

theorem traceName_twins {f f' : FlowTrace} (hf : Twins b b' K f f') (statement : NodeId)
    {entry : String × NodeId} (hm : b.Mentions entry) :
    Twins b b' K ((run.keeping keep).traceName statement f entry)
      ((run.keeping keep').traceName statement f' entry) := by
  rw [traceName_eq, traceName_eq]
  cases ht : run.target? entry.1 entry.2 with
  | none => exact hf
  | some asked =>
    obtain ⟨target, key⟩ := asked
    have hheld : target.Held .same b statement := target?_held hm ht nofun
    rw [← hf.tracers.deadline]
    obtain ⟨hfst, hsnd⟩ := (Tracer.query_ends ab nofun hK hf.tracers.toAligned
      (run.within f.tracer.deadline) hheld {}).same
    exact {
      tracers := hsnd.toAbreast
      slices := by simp only [add, hf.slices, hsnd.slices]
      types := by simp only [add, hf.types, hsnd.slices]
      isPartial := by simp only [add, hf.isPartial, hfst, hsnd.truncation] }

theorem traceNames_twins {f f' : FlowTrace} (hf : Twins b b' K f f') (statement : NodeId)
    {entries : List (String × NodeId)} (hm : ∀ entry ∈ entries, b.Mentions entry) :
    Twins b b' K (entries.foldl ((run.keeping keep).traceName statement) f)
      (entries.foldl ((run.keeping keep').traceName statement) f') := by
  induction entries generalizing f f' with
  | nil => exact hf
  | cons entry rest ih =>
    exact ih (traceName_twins ab hK hf statement (hm entry List.mem_cons_self))
      fun e he => hm e (List.mem_cons_of_mem _ he)

/-- One sink, on tracers over graphs that answer alike. -/
theorem flow_twins (run : Run) {t t' : Tracer} (ht : t.Abreast b b' K t') {sink : Sink}
    (hs : sink.Held b) :
    ((run.keeping keep).flow t sink).1 = ((run.keeping keep').flow t' sink).1 ∧
      ((run.keeping keep).flow t sink).2.Abreast b b' K ((run.keeping keep').flow t' sink).2 := by
  have ag : Service.Alike .same t.graph t'.graph := ht.left.alike.symm.trans ab ht.right.alike
  have hparts : Parts.of t.graph sink = Parts.of t'.graph sink :=
    Parts.of_alike ag ⟨ht.left.alike.holds hs.node, ht.left.alike.holds hs.argument⟩
  have hmentions := Parts.mentions ht.left.alike hs
  rw [flow_eq, flow_eq, ← hparts]
  generalize Parts.of t.graph sink = parts at hmentions
  have hstart : Twins b b' K ((run.keeping keep).start parts t sink)
      ((run.keeping keep').start parts t' sink) := ⟨ht, rfl, rfl, rfl⟩
  have htraced : Twins b b' K ((run.keeping keep).traced parts t sink)
      ((run.keeping keep').traced parts t' sink) :=
    traceNames_twins ab hK hstart _ hmentions
  generalize (run.keeping keep).traced parts t sink = f at htraced
  generalize (run.keeping keep').traced parts t' sink = f' at htraced
  have ag' : Service.Alike .same f.tracer.graph f'.tracer.graph :=
    htraced.tracers.left.alike.symm.trans ab htraced.tracers.right.alike
  have hreach := (Service.reach_agree ag' nofun sink.node.id).eq
  refine ⟨?_, htraced.tracers⟩
  simp only [finish, htraced.types, htraced.slices, htraced.isPartial, hreach]
  rfl

/-- All sinks, on tracers over graphs that answer alike. -/
theorem flows_twins (run : Run) {t t' : Tracer} (ht : t.Abreast b b' K t') {sinks : List Sink}
    (hs : ∀ sink ∈ sinks, sink.Held b) :
    ((run.keeping keep).flows t sinks).1 = ((run.keeping keep').flows t' sinks).1 ∧
      ((run.keeping keep).flows t sinks).2.Abreast b b' K ((run.keeping keep').flows t' sinks).2 := by
  induction sinks generalizing t t' with
  | nil => exact ⟨rfl, ht⟩
  | cons sink rest ih =>
    obtain ⟨hflow, ht'⟩ := flow_twins ab hK run ht (hs sink List.mem_cons_self)
    obtain ⟨hflows, ht''⟩ := ih ht' fun s hm => hs s (List.mem_cons_of_mem _ hm)
    simp only [flows]
    exact ⟨by rw [hflow, hflows], ht''⟩

end Same

/-! ## Graphs on which questions may fail -/

section Lossy

/-- A tracer over `b`. -/
structure Kept (keep : Bool) (b : Service) (t : Tracer) : Prop where
  resolver : t.resolver.Sound keep b
  honest : t.Honest b

theorem Kept.new (keep : Bool) (b : Service) : Kept keep b (Tracer.new b) :=
  ⟨.new keep b, Tracer.honest_new b⟩

theorem Kept.tracer (keep : Bool) (b : Service) (run : Run) : Kept keep b (run.tracer b) :=
  ⟨.new keep b, run.honest_tracer b⟩

theorem Kept.aligned {t t' : Tracer} (hk : Kept keep b t) (hk' : Kept keep' b' t') :
    t.Aligned b b' (fun r r' => r.Sound keep b ∧ r'.Sound keep' b') t' :=
  ⟨⟨hk.resolver, hk'.resolver⟩, hk.honest, hk'.honest⟩

theorem Kept.flow {t : Tracer} (hk : Kept keep b t) (hw : b.WritesAlike) (run : Run) {sink : Sink}
    (hs : sink.Held b) : Kept keep b ((run.keeping keep).flow t sink).2 := by
  have hself := (flow_twins (.self b) (Resolver.bridge_self hw) run ⟨hk.aligned hk, rfl⟩ hs).2
  exact ⟨hself.resolvers.1, hself.left⟩

/-- A name that is traced never makes a flow whole again. -/
theorem isPartial_of_start {statement : NodeId} {f : FlowTrace} {entries : List (String × NodeId)}
    (hf : (entries.foldl (run.traceName statement) f).isPartial = false) : f.isPartial = false := by
  induction entries generalizing f with
  | nil => exact hf
  | cons entry rest ih =>
    have hnext := ih hf
    unfold traceName at hnext
    split at hnext
    · exact hnext
    · simp only [Bool.or_eq_false_iff] at hnext
      exact hnext.1.1

variable (ab : Service.Alike .lossy b b')

section

variable (hK : Resolver.Bridge .lossy keep keep' b b' K)
include ab hK

/-- As long as a flow is whole, the same is found on both sides. -/
theorem traceName_whole {f f' : FlowTrace} (hf : Twins b b' K f f') (statement : NodeId)
    {entry : String × NodeId} (hm : b.Mentions entry)
    (hwhole : ((run.keeping keep).traceName statement f entry).isPartial = false) :
    Twins b b' K ((run.keeping keep).traceName statement f entry)
      ((run.keeping keep').traceName statement f' entry) := by
  rw [traceName_eq] at hwhole ⊢
  rw [traceName_eq]
  cases ht : run.target? entry.1 entry.2 with
  | none => exact hf
  | some asked =>
    obtain ⟨target, key⟩ := asked
    have hheld : target.Held .lossy b statement := target?_held hm ht nofun
    rw [ht] at hwhole
    simp only [add, Bool.or_eq_false_iff, Bool.not_eq_false'] at hwhole
    obtain ⟨⟨-, hok⟩, -⟩ := hwhole
    rw [← hf.tracers.deadline]
    obtain ⟨hok', htwins⟩ := (Tracer.query_ends ab nofun hK hf.tracers.toAligned
      (run.within f.tracer.deadline) hheld {}).of_isOk hok
    exact {
      tracers := htwins.toAbreast
      slices := by simp only [add, hf.slices, htwins.slices]
      types := by simp only [add, hf.types, htwins.slices]
      isPartial := by simp only [add, hf.isPartial, hok, hok', htwins.truncation] }

theorem traceNames_whole {f f' : FlowTrace} (hf : Twins b b' K f f') (statement : NodeId)
    {entries : List (String × NodeId)} (hm : ∀ entry ∈ entries, b.Mentions entry)
    (hwhole : (entries.foldl ((run.keeping keep).traceName statement) f).isPartial = false) :
    Twins b b' K (entries.foldl ((run.keeping keep).traceName statement) f)
      (entries.foldl ((run.keeping keep').traceName statement) f') := by
  induction entries generalizing f f' with
  | nil => exact hf
  | cons entry rest ih =>
    have hfirst := traceName_whole ab hK hf statement (hm entry List.mem_cons_self)
      (isPartial_of_start hwhole)
    exact ih hfirst (fun e he => hm e (List.mem_cons_of_mem _ he)) hwhole

/-- A flow that is not partial is the flow of the graph that answers more. -/
theorem flow_whole (run : Run) {t t' : Tracer} (ht : t.Abreast b b' K t') {sink : Sink}
    (hs : sink.Held b) (hwhole : ((run.keeping keep).flow t sink).1.isPartial = false) :
    ((run.keeping keep).flow t sink).1 = ((run.keeping keep').flow t' sink).1 ∧
      ((run.keeping keep).flow t sink).2.Abreast b b' K ((run.keeping keep').flow t' sink).2 := by
  have ag : Service.Alike .lossy t.graph t'.graph := ht.left.alike.symm.trans ab ht.right.alike
  have hmentions := Parts.mentions ht.left.alike hs
  rw [flow_eq] at hwhole ⊢
  rw [flow_eq]
  simp only [finish, Bool.or_eq_false_iff, Bool.not_eq_false'] at hwhole
  obtain ⟨htraced, hreached⟩ := hwhole
  have hstart := isPartial_of_start htraced
  simp only [start, Bool.or_eq_false_iff, Bool.not_eq_false'] at hstart
  obtain ⟨⟨⟨hargument, hcode⟩, hstatement⟩, hscript⟩ := hstart
  have hparts : Parts.of t.graph sink = Parts.of t'.graph sink := by
    have h₁ := (Service.renderNode_agree ag (ht.left.alike.holds hs.argument) false).eq_of_isOk
      hargument
    have h₂ := (Service.renderNode_agree ag (ht.left.alike.holds hs.node) false).eq_of_isOk hcode
    have h₃ := (Service.statement_agree ag nofun).eq_of_isOk hstatement
    have h₄ := ((Service.lineage_alike ag sink.node.id).top_agree sink.node.id).eq_of_isOk hscript
    simp only [Parts.of, h₁, h₂, h₃, h₄]
  rw [← hparts]
  generalize Parts.of t.graph sink = parts at *
  have hfirst : Twins b b' K ((run.keeping keep).start parts t sink)
      ((run.keeping keep').start parts t' sink) := ⟨ht, rfl, rfl, rfl⟩
  have htwins : Twins b b' K ((run.keeping keep).traced parts t sink)
      ((run.keeping keep').traced parts t' sink) :=
    traceNames_whole ab hK hfirst _ hmentions htraced
  generalize (run.keeping keep).traced parts t sink = f at hreached htwins ⊢
  generalize (run.keeping keep').traced parts t' sink = f' at htwins ⊢
  have ag' : Service.Alike .lossy f.tracer.graph f'.tracer.graph :=
    htwins.tracers.left.alike.symm.trans ab htwins.tracers.right.alike
  have hreach := (Service.reach_agree ag' nofun sink.node.id).eq_of_isOk hreached
  refine ⟨?_, htwins.tracers⟩
  simp only [finish, htwins.slices, htwins.types, htwins.isPartial, hreach]
  rfl

end

variable
  (hK : Resolver.Bridge .lossy keep keep' b b' fun r r' => r.Sound keep b ∧ r'.Sound keep' b')
  (hw : b.WritesAlike) (hw' : b'.WritesAlike)
include ab hK hw hw'

end Lossy

end Run

namespace Engine

/-- The analysis, with or without writing owners into the graph. -/
def keeping (engine : Engine) (keep : Bool) : Engine :=
  { engine with config := { engine.config with materialise := keep } }

/-- The resolver at the end of an analysis. -/
def lastResolver (engine : Engine) (g : Service) (page : Page) : Resolver :=
  match g.sinks (engine.scope page) with
  | .error _ => ⟨g, []⟩
  | .ok sinks => ((engine.run page).flows ((engine.run page).tracer g) sinks).2.resolver

theorem analyse_graph (engine : Engine) (g : Service) (page : Page) :
    (engine.analyse g page).2 = (engine.lastResolver g page).graph := by
  unfold analyse lastResolver
  cases g.sinks (engine.scope page) <;> rfl

/-- **Graphs that answer alike have the same report**, if they have the same owners of `this`. -/
theorem analyse_twins (ab : Service.Alike .same b b') (hK : Resolver.Bridge .same keep keep' b b' K)
    (hnew : K ⟨b, []⟩ ⟨b', []⟩) (engine : Engine) (page : Page) :
    ((engine.keeping keep).analyse b page).1 = ((engine.keeping keep').analyse b' page).1 ∧
      K ((engine.keeping keep).lastResolver b page) ((engine.keeping keep').lastResolver b' page) := by
  have hagree := Service.sinks_agree ab (engine.scope page)
  have hscope : ∀ keep, (engine.keeping keep).scope page = engine.scope page := fun _ => rfl
  unfold analyse lastResolver
  rw [hscope, hscope, ← hagree.eq]
  cases hs : b.sinks (engine.scope page) with
  | error fault => exact ⟨rfl, hnew⟩
  | ok sinks =>
    have ht : ((engine.run page).tracer b).Abreast b b' K ((engine.run page).tracer b') :=
      ⟨⟨hnew, (engine.run page).honest_tracer b, (engine.run page).honest_tracer b'⟩, rfl⟩
    obtain ⟨hflows, hlast⟩ :=
      Run.flows_twins ab hK (engine.run page) ht (hagree.of_ok hs).2
    refine ⟨?_, hlast.resolvers⟩
    change Report.mk _ _ = Report.mk _ _
    exact congrArg _ hflows

end Engine

end RequestFlow

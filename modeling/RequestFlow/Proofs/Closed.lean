/-
Graphs in which both ends of every edge exist. On such a graph no question about
an existing node fails: every node that is looked up stands at the end of an
edge, or was looked for before. What an analysis writes keeps the graph so, and a
flow is partial only because a budget was used up.
-/
import RequestFlow.Proofs.Answers
import RequestFlow.Proofs.Webpage.Reload

namespace RequestFlow

variable {mode : Mode} {keep : Bool} {store : Store}

/-- A graph that was read from tables is closed: edges without their ends are left out. -/
theorem Store.closed_of_load {disk disk' : Disk} {folder : Path}
    (h : disk.run (load folder) = (.ok store, disk')) : store.Closed := by
  rw [run_load] at h
  obtain ⟨nodes, -, h⟩ := exists_of_bind (congrArg Prod.fst h)
  obtain ⟨edges, -, h⟩ := exists_of_bind h
  obtain ⟨owners, -, h⟩ := exists_of_bind h
  cases h
  exact ofTables_closed _ _

/-! ## Questions -/

namespace Service

theorem calleeCode_agree {g h : Service} (a : Alike mode g h) (call : NodeId) :
    Agree mode (fun _ => True) (g.calleeCode call) (h.calleeCode call) := by
  unfold calleeCode
  refine (child?_holds a call "callee" (some 0)).bind fun r hr => ?_
  split
  · exact (renderNode_agree a (hr _ rfl) false).bind fun _ _ => .answer trivial
  · exact .answer trivial

/-- Each question about a node has an answer. -/
structure AnswersAt (g : Service) (id : NodeId) : Prop where
  render (short : Bool) : ∃ rendered, g.render id short = .ok rendered
  statement : ∃ node, g.statement id = .ok node
  calleeCode : ∃ code, g.calleeCode id = .ok code
  parameters : ∃ names, g.parameters id = .ok names
  callSites : ∃ sites, g.callSites id = .ok sites
  reach : ∃ verdict, g.reach id = .ok verdict

theorem answersAt_of_closed (hc : store.Closed) {id : NodeId} (he : store.hasNode id = true) :
    store.service.AnswersAt id := by
  have ha : Alike .total store.service store.service := .of_closed hc
  have hevents : store.service.EventsHeld .total := fun _ edge hm _ => (hc edge hm).1
  exact {
    render := fun short => (render_agree ha (fun _ => he) short).exists_ok.imp fun _ h => h.1
    statement := (statement_agree ha fun _ => he).exists_ok.imp fun _ h => h.1
    calleeCode := (calleeCode_agree ha id).exists_ok.imp fun _ h => h.1
    parameters := (parameters_agree ha id).exists_ok.imp fun _ h => h.1
    callSites := (callSites_agree ha (fun _ => hc) id).exists_ok.imp fun _ h => h.1
    reach := (reach_agree ha hevents id).exists_ok.imp fun _ h => h.1 }

end Service

/-! ## Owners of `this` -/

namespace Resolver

/-- The resolver after it has been asked for occurrences of `this`, however that went. -/
def after (keep : Bool) (r : Resolver) (asked : List NodeId) : Resolver :=
  asked.foldl (fun r this => (r.resolve keep this).2) r

theorem sound_after {r : Resolver} (hs : Sound keep store.service r) (asked : List NodeId) :
    Sound keep store.service (r.after keep asked) := by
  induction asked generalizing r with
  | nil => exact hs
  | cons this rest ih =>
    cases he : store.hasNode this with
    | true => exact ih (hs.resolve (Service.writesAlike_service store) he).2
    | false => exact ih (hs.resolve_of_missing (fun _ => rfl) he).2

/-- On a closed graph every occurrence of `this` that exists has owners, and they exist. -/
theorem exists_owned (keep : Bool) (hc : store.Closed) {this : NodeId}
    (he : store.hasNode this = true) : ∃ res, store.service.owned keep this = .ok res ∧
      OwnersHeld store.service res.owners := by
  have hstore : Agree .total (fun _ => True) (store.service.mayStore keep this)
      (store.service.mayStore keep this) := by
    unfold Service.mayStore
    split <;> exact .answer trivial
  obtain ⟨owners, howners, hheld⟩ :=
    (Service.owned_agree (.of_closed hc) (fun _ => hc) he (.answer rfl) hstore).exists_ok
  cases hr : store.service.owned keep this with
  | error fault => rw [hr] at howners; cases howners
  | ok res =>
    rw [hr] at howners
    cases howners
    exact ⟨res, rfl, hheld rfl⟩

theorem exists_resolve (hc : store.Closed) {r : Resolver} (hs : Sound keep store.service r)
    {this : NodeId} (he : store.hasNode this = true) :
    ∃ res, (r.resolve keep this).1 = .ok res := by
  obtain ⟨res, hres, -⟩ := exists_owned keep hc he
  exact ⟨res, (hs.resolve (Service.writesAlike_service store) he).1.trans hres⟩

theorem bridge_total (hc : store.Closed) :
    Bridge .total keep keep store.service store.service
      fun r r' => r.Sound keep store.service ∧ r'.Sound keep store.service := by
  have hw := Service.writesAlike_service store
  refine bridge hw hw fun this he => ⟨he, ?_⟩
  obtain ⟨res, hres, hheld⟩ := exists_owned keep hc he
  rw [hres]
  exact .answer fun _ => hheld

end Resolver

/-! ## Traces -/

/-- On a closed graph a query that names existing nodes is answered, whatever the tracer has been
asked before. -/
theorem Tracer.exists_query (hc : store.Closed) {t : Tracer} (hk : Run.Kept keep store.service t)
    (setting : Trace.Setting) {target : Target} {context : NodeId}
    (hx : store.hasNode context = true) (ht : ∀ id, target = .this id → store.hasNode id = true)
    (slices : SliceSet) :
    ∃ t', t.query (setting.keeping keep) target context slices = (.ok (), t') := by
  have hends := query_ends (.of_closed hc) (fun _ => hc) (Resolver.bridge_total hc) (hk.aligned hk)
    setting ⟨fun _ => hx, ht⟩ slices
  obtain ⟨_, t', h⟩ := hends.exists_ok
  exact ⟨t', h⟩

/-! ## Flows -/

namespace Run

/-- A budget cuts the trace of some name short that the argument of a sink mentions: the depth, or the
time that is left when the analysis comes to the sink. -/
def CutsSome (run : Run) (g : Service) (time : Deadline) (sink : Sink) : Prop :=
  ∃ answer ∈ run.answersAt g time sink, answer.tracer.truncation.isSome = true

variable (hc : store.Closed)
include hc

/-- The parts of a flow of a closed graph can all be had. -/
theorem parts_total {sink : Sink} (hs : sink.Held store.service) :
    ∃ argument code statement script,
      Parts.of store.service sink = ⟨.ok argument, .ok code, .ok statement, .ok script⟩ := by
  have ha : Service.Alike .total store.service store.service := .of_closed hc
  obtain ⟨argument, hargument, -⟩ := (Service.renderNode_agree ha hs.argument false).exists_ok
  obtain ⟨code, hcode, -⟩ := (Service.renderNode_agree ha hs.node false).exists_ok
  obtain ⟨statement, hstatement, -⟩ :=
    (Service.statement_agree ha fun _ => hs.node.hasNode).exists_ok
  obtain ⟨script, hscript, -⟩ :=
    ((Service.lineage_alike ha sink.node.id).top_agree sink.node.id).exists_ok
  exact ⟨argument, code, statement, script, by rw [Parts.of, hargument, hcode, hstatement, hscript]⟩

/-- No query for a name of an argument fails. -/
theorem answersAt_isOk (run : Run) {sink : Sink} (hs : sink.Held store.service) (time : Deadline)
    {answer : Answer} (hm : answer ∈ run.answersAt store.service time sink) :
    answer.outcome.isOk = true := by
  obtain ⟨hentry, htarget, hquery⟩ := run.of_mem_answers hm
  obtain ⟨statement, hstatement, hheld⟩ :=
    (Service.statement_agree (.of_closed hc) fun _ => hs.node.hasNode).exists_ok
  rw [hstatement] at hquery
  have hmention := Parts.mentions (.self _) hs _ hentry
  have htarget' : answer.target.Held .total store.service statement.id :=
    target?_held hmention htarget fun _ => hheld.hasNode
  obtain ⟨t', hok⟩ := Tracer.exists_query hc (.new run.setting.options.materialise _)
    (run.within answer.time) hheld.hasNode htarget'.this {}
  have houtcome : answer.outcome = .ok () := congrArg Prod.fst (hquery.symm.trans hok)
  rw [houtcome]
  rfl

/-- **A flow is partial exactly when a budget cuts one of its traces short.** -/
theorem flow_partial_iff (run : Run) {t : Tracer} (hk : Kept keep store.service t) {sink : Sink}
    (hs : sink.Held store.service) :
    ((run.keeping keep).flow t sink).1.isPartial = true ↔
      (run.keeping keep).CutsSome store.service t.deadline sink := by
  obtain ⟨hlast, hfresh⟩ := flow_fresh run hk hs
  obtain ⟨argument, code, statement, script, hparts⟩ := parts_total hc hs
  have hstart : ((run.keeping keep).start (Parts.of store.service sink) t sink).isPartial = false := by
    rw [hparts]
    rfl
  have hreach : (((run.keeping keep).flow t sink).2.graph.reach sink.node.id).isOk = true := by
    obtain ⟨verdict, hv⟩ := (Service.answersAt_of_closed hc hs.node.hasNode).reach
    rw [← (Service.reach_agree hlast.honest.alike nofun sink.node.id).eq, hv]
    rfl
  have hpartial : ((run.keeping keep).flow t sink).1.isPartial =
      ((run.keeping keep).found store.service t sink).isPartial := by
    rw [← hfresh.isPartial]
    rw [flow_eq] at hreach ⊢
    simp only [finish, hreach, Bool.not_true, Bool.or_false]
  rw [hpartial, found, isPartial_foldl_record, hstart, CutsSome]
  simp only [Bool.false_eq_true, false_or]
  refine exists_congr fun answer => and_congr_right fun hm => ?_
  rw [answersAt_isOk hc (run.keeping keep) hs t.deadline hm]
  simp

theorem flows_partial_iff (run : Run) {t : Tracer} (hk : Kept keep store.service t)
    {sinks : List Sink} (hs : ∀ sink ∈ sinks, sink.Held store.service) :
    List.Forall₂ (fun timed flow => flow.isPartial = true ↔
        (run.keeping keep).CutsSome store.service timed.1 timed.2)
      ((run.keeping keep).timed store.service t.deadline sinks)
      ((run.keeping keep).flows t sinks).1 :=
  forall₂_flows run (P := fun time sink flow => flow.isPartial = true ↔
    (run.keeping keep).CutsSome store.service time sink)
    (fun hk hs => flow_partial_iff hc run hk hs) hk hs

end Run

/-! ## All together -/

/-- Nothing fails on the graph, and it stays closed. -/
structure Store.Safe (store : Store) : Prop where
  /-- What is asked about a node that exists is answered. -/
  answers : ∀ id, store.hasNode id = true → store.service.AnswersAt id
  /-- The scan for sinks goes through. -/
  scan : ∀ scope, ∃ sinks, store.service.sinks scope = .ok sinks
  /-- An occurrence of `this` is resolved, whatever has been asked for before. -/
  resolve : ∀ keep asked this, store.hasNode this = true →
    ∃ res, ((Resolver.after keep ⟨store.service, []⟩ asked).resolve keep this).1 = .ok res
  /-- A name or an occurrence of `this` is traced, whatever has been traced before. -/
  trace : ∀ setting earlier (q : Tracer.Query), store.hasNode q.context = true →
    (∀ id, q.target = .this id → store.hasNode id = true) →
    (((Tracer.new store.service).after setting earlier).query setting q.target q.context
      q.slices).1 = .ok ()
  /-- Resolving, tracing and analysing leave a closed graph, also after what has failed. -/
  resolver_closed : ∀ keep asked,
    (Resolver.after keep ⟨store.service, []⟩ asked).graph.store.Closed
  tracer_closed : ∀ setting queries,
    ((Tracer.new store.service).after setting queries).graph.store.Closed
  analysis_closed : ∀ (engine : Engine) page, (engine.analyse store.service page).2.store.Closed
  /-- A flow of the analysis is partial exactly when a budget has cut one of its traces short, be it
  that the deadline has passed before the sink or that it passes on the way. -/
  partial_iff : ∀ (engine : Engine) page, ∃ sinks,
    store.service.sinks (engine.scope page) = .ok sinks ∧
    List.Forall₂ (fun timed flow => flow.isPartial = true ↔
        (engine.run page).CutsSome store.service timed.1 timed.2)
      ((engine.run page).timed store.service (engine.traceOptions page).deadline sinks)
      (engine.analyse store.service page).1.flows

/-- **Nothing fails on a closed graph**, and every graph that was loaded is closed. -/
theorem Store.closed_safe :
    (∀ {disk disk' : Disk} {folder : Path} {store : Store},
      disk.run (load folder) = (.ok store, disk') → store.Closed) ∧
    ∀ {store : Store}, store.Closed → store.Safe := by
  refine ⟨closed_of_load, fun {store} hc => ?_⟩
  have hw := Service.writesAlike_service store
  have hscan : ∀ scope, ∃ sinks, store.service.sinks scope = .ok sinks ∧
      ∀ sink ∈ sinks, sink.Held store.service := fun scope =>
    (Service.sinks_agree (.of_closed hc) scope).exists_ok
  exact {
    answers := fun id he => Service.answersAt_of_closed hc he
    scan := fun scope => (hscan scope).imp fun _ h => h.1
    resolve := fun keep asked this he =>
      Resolver.exists_resolve hc (Resolver.sound_after (.new keep _) asked) he
    trace := fun setting earlier q hx ht => by
      have hk := Run.Kept.new setting.options.materialise store.service
      obtain ⟨t, hquery⟩ :=
        Tracer.exists_query hc (Tracer.kept_after hk setting earlier) setting hx ht q.slices
      exact congrArg Prod.fst hquery
    resolver_closed := fun keep asked => (Resolver.sound_after (.new keep _) asked).closed hc
    tracer_closed := fun setting queries => by
      have hk := Run.Kept.new setting.options.materialise store.service
      exact (Tracer.kept_after hk setting queries).resolver.closed hc
    analysis_closed := fun engine page => by
      have hbridge := @Resolver.bridge_self engine.config.materialise _ hw
      have hlast := (Engine.analyse_twins (.self _) hbridge ⟨.new _ _, .new _ _⟩ engine page).2
      rw [Engine.analyse_graph]
      exact hlast.1.closed hc
    partial_iff := fun engine page => by
      obtain ⟨sinks, hsinks, hheld⟩ := hscan (engine.scope page)
      refine ⟨sinks, hsinks, ?_⟩
      unfold Engine.analyse
      rw [hsinks]
      exact Run.flows_partial_iff hc (engine.run page) (.tracer _ _ (engine.run page)) hheld }

/-- A page that is read from a disk is closed and safe. Its one flow is whole, unless the budget
allows for one level only or the deadline passes on the way. -/
theorem Store.closed_safe_loadPage :
    let store := Store.ofTables loadPageNodes loadPageEdges
    loadPage.run (Store.load "site") = (.ok store, loadPage) ∧ store.Closed ∧ store.Safe ∧
    ((⟨{}, {}, {}, []⟩ : Engine).analyse store.service {}).1.flows.map (·.isPartial) = [false] ∧
    ((⟨{ maxDepth := 1 }, {}, {}, []⟩ : Engine).analyse store.service {}).1.flows.map
      (·.isPartial) = [true] ∧
    ((⟨{}, {}, {}, []⟩ : Engine).analyse store.service { deadline := ⟨some 1⟩ }).1.flows.map
      (·.isPartial) = [true] := by
  intro store
  have hnodes : Store.table Table.readNodes loadPage (Path.under "site" Store.nodesFile) =
      .ok loadPageNodes := by
    refine Store.table_eq_ok.mpr ⟨_, Disk.read_ofText rfl, ?_⟩
    rw [Table.readNodes, Table.readRows, Chars.lines_join (by decide) (by decide)]
    decide +kernel
  have hedges : Store.table Table.readEdges loadPage (Path.under "site" Store.edgesFile) =
      .ok loadPageEdges := by
    exact Store.table_eq_ok.mpr
      ⟨_, Disk.read_ofText rfl, Table.readEdges_appendix (by decide +kernel)⟩
  have hload : loadPage.run (Store.load "site") = (.ok store, loadPage) :=
    Store.run_load_tables rfl hnodes hedges
  have hclosed : store.Closed := closed_safe.1 hload
  exact ⟨hload, hclosed, closed_safe.2 hclosed, by decide +kernel⟩

end RequestFlow

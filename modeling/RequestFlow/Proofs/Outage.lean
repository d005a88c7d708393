/-
The report of a page on which some questions always fail, beside the report of
the healthy page. As long as no answer is missing, the two analyses go in
lockstep, down to the edges that they write. So the flows before the first
partial one are the healthy ones, and a report without a partial flow is the
healthy report, but for one case: when the scan for sinks fails there is no flow
left that could be marked.

After a partial flow the two graphs may differ in the owners of `this` that have
been written. Where the writes from one node fail together this makes no
difference, and every flow that is not partial is the healthy one.
-/
import RequestFlow.Proofs.Footprint

namespace RequestFlow

variable {keep : Bool}

/-- A store behind a connection that lets everything through has all that the same store has behind
another connection. -/
theorem Service.lossy_service (g : Service) : Alike .lossy g g.store.service where
  nodes := rfl
  edges := rfl
  asked query _ := by
    rw [ask]
    cases g.outage query with
    | none => exact .answer trivial
    | some reason => exact .fault (by decide) fun hm => by cases hm
  closed hm := by cases hm

namespace Service

variable {g h : Service}

/-- A write that goes through behind one connection goes through behind a healthy one. -/
theorem createEdge_service {edge : Edge} (hok : g.createEdge edge = .ok h) :
    g.store.service.createEdge edge = .ok h.store.service := by
  unfold createEdge ask at hok
  cases hout : g.outage (.createEdge edge) with
  | some reason =>
    rw [hout] at hok
    cases hok
  | none =>
    rw [hout] at hok
    change (g.store.createEdge edge >>= fun store => .ok { g with store }) = .ok h at hok
    obtain ⟨store, hstore, hok⟩ := exists_of_bind hok
    cases hok
    change (g.store.createEdge edge >>= fun store => .ok store.service) = _
    rw [hstore]
    rfl

theorem writeAll_service {edges : List Edge} (hok : Transaction.writeAll g edges = (.ok (), h)) :
    Transaction.writeAll g.store.service edges = (.ok (), h.store.service) := by
  induction edges generalizing g with
  | nil =>
    cases hok
    rfl
  | cons edge rest ih =>
    rw [Transaction.writeAll] at hok ⊢
    cases hedge : g.createEdge edge with
    | error fault =>
      rw [hedge] at hok
      cases hok
    | ok next =>
      rw [hedge] at hok
      rw [createEdge_service hedge]
      exact ih hok

theorem commit_service {t : Transaction} {count : Nat} (hok : t.commit g = (.ok count, h)) :
    t.commit g.store.service = (.ok count, h.store.service) := by
  unfold Transaction.commit at hok ⊢
  cases hwrite : Transaction.writeAll g t.pending with
  | mk outcome last =>
    rw [hwrite] at hok
    cases outcome with
    | error fault => cases hok
    | ok done =>
      cases hok
      rw [writeAll_service hwrite]
      rfl

end Service

/-! ## Occurrences of `this` -/

namespace Resolver

variable {g h : Service} {this : NodeId} {res : Resolution}

theorem find_service (hok : find keep g this = (.ok res, h)) :
    find keep g.store.service this = (.ok res, h.store.service) := by
  unfold find at hok ⊢
  have hread : ∀ edges, g.outgoing this (some .pointsTo) = .ok edges →
      g.store.service.outgoing this (some .pointsTo) = .ok edges := by
    intro edges hedges
    unfold Service.outgoing Service.ask at hedges
    split at hedges
    · cases hedges
    · exact hedges
  cases hedges : g.outgoing this (some .pointsTo) with
  | error fault =>
    rw [hedges] at hok
    cases hok
  | ok edges =>
    rw [hedges] at hok
    rw [hread edges hedges]
    dsimp only at hok ⊢
    cases hstored : Resolution.ofEdges? edges with
    | some stored =>
      rw [hstored] at hok
      cases hok
      rfl
    | none =>
      rw [hstored] at hok
      dsimp only at hok ⊢
      cases hcompute : g.computeOwners this with
      | error fault =>
        rw [hcompute] at hok
        cases hok
      | ok found =>
        rw [hcompute] at hok
        rw [((Service.computeOwners_agree_or g.lossy_service this).of_ok hcompute).1]
        cases keep with
        | false =>
          cases hok
          rfl
        | true =>
          dsimp only at hok ⊢
          rw [if_pos rfl] at hok ⊢
          cases hcommit : (Transaction.ofEdges (found.edges this)).commit g with
          | mk outcome last =>
            rw [hcommit] at hok
            cases outcome with
            | error fault => cases hok
            | ok count =>
              cases hok
              rw [Service.commit_service hcommit]
              rfl

/-- The resolver with the same memory, over the same store without the outage. -/
def healthy (r : Resolver) : Resolver := ⟨r.graph.store.service, r.known⟩

/-- **What is resolved during an outage** is resolved, remembered and stored alike without it. -/
theorem resolve_healthy {r q : Resolver} (hok : r.resolve keep this = (.ok res, q)) :
    r.healthy.resolve keep this = (.ok res, q.healthy) := by
  have hknown : r.healthy.known = r.known := rfl
  unfold resolve at hok ⊢
  rw [hknown]
  cases hl : r.known.lookup this with
  | some known =>
    rw [hl] at hok
    cases hok
    rfl
  | none =>
    rw [hl] at hok
    dsimp only at hok ⊢
    cases hfind : find keep r.graph this with
    | mk outcome graph =>
      rw [hfind] at hok
      cases outcome with
      | error fault => cases hok
      | ok found =>
        cases hok
        rw [healthy, find_service hfind]
        rfl

/-- A resolver during an outage, and the same one without it. -/
structure Lockstep (keep : Bool) (g : Service) (r r' : Resolver) : Prop where
  stored : ∃ new, g.Stored keep r.graph new
  healthy : r' = r.healthy

theorem Lockstep.new (keep : Bool) (g : Service) : Lockstep keep g ⟨g, []⟩ ⟨g.store.service, []⟩ :=
  ⟨⟨[], .refl keep g⟩, rfl⟩

theorem bridge_lockstep (keep : Bool) (g : Service) :
    Bridge .lossy keep keep g g.store.service (Lockstep keep g) where
  left hl := by
    obtain ⟨new, hs⟩ := hl.stored
    exact hs.alike
  right hl := by
    obtain ⟨new, hs⟩ := hl.stored
    rw [hl.healthy]
    exact .of_outage rfl hs.alike.nodes.symm hs.alike.edges.symm
  owners := by
    intro r r' this hl _
    obtain ⟨new, hs⟩ := hl.stored
    obtain ⟨new', hs'⟩ := r.resolve_stored keep this
    rw [hl.healthy, Resolver.owners, Resolver.owners]
    cases hresolve : r.resolve keep this with
    | mk outcome q =>
      rw [hresolve] at hs'
      cases outcome with
      | error fault => exact .fault (by decide) fun hm => by cases hm
      | ok res =>
        rw [resolve_healthy hresolve]
        exact .answer (fun hm => by cases hm) ⟨⟨_, hs.trans hs'⟩, rfl⟩

end Resolver

/-! ## Reports -/

namespace Run

/-- Flows up to the first that is partial are the flows of the graph that answers more. -/
theorem take_flows_of_whole {keep' : Bool} {b b' : Service} {K : Resolver → Resolver → Prop}
    (ab : Service.Alike .lossy b b') (hK : Resolver.Bridge .lossy keep keep' b b' K) (run : Run)
    {t t' : Tracer} (ht : t.Abreast b b' K t') {sinks : List Sink} (hs : ∀ sink ∈ sinks, sink.Held b)
    {n : Nat} (hwhole : ∀ flow ∈ ((run.keeping keep).flows t sinks).1.take n, flow.isPartial = false) :
    ((run.keeping keep).flows t sinks).1.take n = ((run.keeping keep').flows t' sinks).1.take n := by
  induction sinks generalizing t t' n with
  | nil => rfl
  | cons sink rest ih =>
    cases n with
    | zero => rfl
    | succ n =>
      obtain ⟨hfirst, hrest⟩ := List.forall_mem_cons.mp hwhole
      obtain ⟨hflow, ht'⟩ := flow_whole ab hK run ht (hs sink List.mem_cons_self) hfirst
      have hflows := ih ht' (fun s hm => hs s (List.mem_cons_of_mem _ hm)) hrest
      simp only [flows, List.take_succ_cons]
      rw [hflow, hflows]

end Run

namespace Engine

theorem analyse_url (engine : Engine) (g : Service) (page : Page) :
    (engine.analyse g page).1.url = page.url := by
  unfold analyse
  split <;> rfl

/-- After a scan that succeeds, the flows up to the first that is partial are the healthy ones. -/
theorem take_flows_of_whole (engine : Engine) {g : Service} (page : Page) {sinks : List Sink}
    (hs : g.sinks (engine.scope page) = .ok sinks) {n : Nat}
    (hwhole : ∀ flow ∈ (engine.analyse g page).1.flows.take n, flow.isPartial = false) :
    (engine.analyse g page).1.flows.take n =
      (engine.analyse g.store.service page).1.flows.take n := by
  obtain ⟨hs', hheld⟩ := (Service.sinks_agree g.lossy_service (engine.scope page)).of_ok hs
  unfold analyse at hwhole ⊢
  rw [hs] at hwhole ⊢
  rw [hs']
  have ht : ((engine.run page).tracer g).Abreast g g.store.service
      (Resolver.Lockstep engine.config.materialise g) ((engine.run page).tracer g.store.service) :=
    ⟨⟨.new _ g, (engine.run page).honest_tracer g, (engine.run page).honest_tracer _⟩, rfl⟩
  exact Run.take_flows_of_whole g.lossy_service
    (Resolver.bridge_lockstep engine.config.materialise g) (engine.run page) ht hheld hwhole

/-- After a scan that succeeds, a report without a partial flow is the healthy one. -/
theorem analyse_eq_of_whole (engine : Engine) {g : Service} (page : Page) {sinks : List Sink}
    (hs : g.sinks (engine.scope page) = .ok sinks)
    (hwhole : ∀ flow ∈ (engine.analyse g page).1.flows, flow.isPartial = false) :
    (engine.analyse g page).1 = (engine.analyse g.store.service page).1 := by
  have htake : ∀ n, (engine.analyse g page).1.flows.take n =
      (engine.analyse g.store.service page).1.flows.take n := fun n =>
    take_flows_of_whole engine page hs fun flow hm => hwhole flow (List.mem_of_mem_take hm)
  have hflows : (engine.analyse g page).1.flows = (engine.analyse g.store.service page).1.flows :=
    List.ext_getElem? fun i => by
      rw [← List.getElem?_take_of_lt (Nat.lt_succ_self i), htake,
        List.getElem?_take_of_lt (Nat.lt_succ_self i)]
  exact congrArg₂ Report.mk ((engine.analyse_url g page).trans (engine.analyse_url _ page).symm) hflows

end Engine

/-! ## Flows that are not partial -/

/-- A call of the graph: what is asked for, at which node and for which family of edges. A write is one
at the node that the edge leaves. -/
inductive GraphCall where
  | node (id : NodeId)
  | outgoing (id : NodeId) (relation : Option Relation)
  | incoming (id : NodeId) (relation : Option Relation)
  | matching (pattern : NodePattern)
  | createEdge (source : NodeId) (relation : Relation)
  deriving DecidableEq, Repr

def Query.call : Query → GraphCall
  | node id => .node id
  | outgoing id relation => .outgoing id relation
  | incoming id relation => .incoming id relation
  | matching pattern => .matching pattern
  | createEdge edge => .createEdge edge.source edge.relation

namespace Engine

end Engine

/-- A page with the statements
`function f() { x = this.u; fetch(x); fetch(x) } a.m = f; f.call(b); fetch(c)`. -/
def ownersPage : Store :=
  .ofLists
    [{ id := 1, type := .program }, { id := 2, type := .functionDeclaration },
     { id := 3, type := .identifier, code := "f" }, { id := 4, type := .blockStatement },
     { id := 5, type := .expressionStatement },
     { id := 6, type := .assignmentExpression, code := "=" },
     { id := 7, type := .identifier, code := "x" }, { id := 8, type := .memberExpression },
     { id := 9, type := .thisExpression }, { id := 10, type := .identifier, code := "u" },
     { id := 11, type := .expressionStatement }, { id := 12, type := .callExpression },
     { id := 13, type := .identifier, code := "fetch" },
     { id := 14, type := .identifier, code := "x" },
     { id := 15, type := .expressionStatement }, { id := 16, type := .callExpression },
     { id := 17, type := .identifier, code := "fetch" },
     { id := 18, type := .identifier, code := "x" },
     { id := 19, type := .expressionStatement },
     { id := 20, type := .assignmentExpression, code := "=" },
     { id := 21, type := .memberExpression }, { id := 22, type := .identifier, code := "a" },
     { id := 23, type := .identifier, code := "m" }, { id := 24, type := .identifier, code := "f" },
     { id := 25, type := .expressionStatement }, { id := 26, type := .callExpression },
     { id := 27, type := .memberExpression }, { id := 28, type := .identifier, code := "f" },
     { id := 29, type := .identifier, code := "call" },
     { id := 30, type := .identifier, code := "b" },
     { id := 31, type := .expressionStatement }, { id := 32, type := .callExpression },
     { id := 33, type := .identifier, code := "fetch" },
     { id := 34, type := .identifier, code := "c" }]
    [{ source := 1, target := 2, relation := .ast, relationType := "body" },
     { source := 2, target := 3, relation := .ast, relationType := "id" },
     { source := 2, target := 4, relation := .ast, relationType := "body" },
     { source := 4, target := 5, relation := .ast, relationType := "body" },
     { source := 5, target := 6, relation := .ast, relationType := "expression" },
     { source := 6, target := 7, relation := .ast, relationType := "left" },
     { source := 6, target := 8, relation := .ast, relationType := "right" },
     { source := 8, target := 9, relation := .ast, relationType := "object" },
     { source := 8, target := 10, relation := .ast, relationType := "property" },
     { source := 4, target := 11, relation := .ast, relationType := "body" },
     { source := 11, target := 12, relation := .ast, relationType := "expression" },
     { source := 12, target := 13, relation := .ast, relationType := "callee" },
     { source := 12, target := 14, relation := .ast, relationType := "arguments" },
     { source := 4, target := 15, relation := .ast, relationType := "body" },
     { source := 15, target := 16, relation := .ast, relationType := "expression" },
     { source := 16, target := 17, relation := .ast, relationType := "callee" },
     { source := 16, target := 18, relation := .ast, relationType := "arguments" },
     { source := 1, target := 19, relation := .ast, relationType := "body" },
     { source := 19, target := 20, relation := .ast, relationType := "expression" },
     { source := 20, target := 21, relation := .ast, relationType := "left" },
     { source := 21, target := 22, relation := .ast, relationType := "object" },
     { source := 21, target := 23, relation := .ast, relationType := "property" },
     { source := 20, target := 24, relation := .ast, relationType := "right" },
     { source := 1, target := 25, relation := .ast, relationType := "body" },
     { source := 25, target := 26, relation := .ast, relationType := "expression" },
     { source := 26, target := 27, relation := .ast, relationType := "callee" },
     { source := 27, target := 28, relation := .ast, relationType := "object" },
     { source := 27, target := 29, relation := .ast, relationType := "property" },
     { source := 26, target := 30, relation := .ast, relationType := "arguments" },
     { source := 1, target := 31, relation := .ast, relationType := "body" },
     { source := 31, target := 32, relation := .ast, relationType := "expression" },
     { source := 32, target := 33, relation := .ast, relationType := "callee" },
     { source := 32, target := 34, relation := .ast, relationType := "arguments" },
     { source := 5, target := 11, relation := .pdg, arguments := "x" },
     { source := 5, target := 15, relation := .pdg, arguments := "x" }]

namespace ownersPage

def engine : Engine := ⟨{ layout := false }, {}, {}, []⟩

/-- Owners of the `this` in `this.u` cannot be written. -/
def down (call : GraphCall) : Option String :=
  if call = .createEdge 9 .pointsTo then some "connection reset" else none

/-- Of its owners `b` alone cannot be written. -/
def half (query : Query) : Option String :=
  match query with
  | .createEdge edge => if edge.target = 30 then some "connection reset" else none
  | _ => none

/-- Whether each flow is partial, and the code that it lists. -/
def shown (g : Service) : List (Bool × List String) :=
  (engine.analyse g {}).1.flows.map fun flow =>
    (flow.isPartial, flow.slices.entries.flatMap fun entry => entry.2.slices.map (·.code))

end ownersPage

/-- Where `b` alone cannot be written, the first flow is partial, but `a` stays behind in the graph.
The second flow takes it for all owners: it lacks `b` and is not partial. -/
theorem Engine.analyse_ownersPage_half :
    ownersPage.shown ⟨ownersPage, ownersPage.half⟩ =
      [(true, ["x = this.u"]), (false, ["x = this.u", "this --(points-to)--> a"]), (false, [])] ∧
    ownersPage.shown ownersPage.service =
      [(false, ["x = this.u", "this --(points-to)--> a", "this --(points-to)--> b"]),
       (false, ["x = this.u", "this --(points-to)--> a", "this --(points-to)--> b"]),
       (false, [])] := by
  decide +kernel

namespace Engine

/-- **When an outage goes unnoticed**: a report that is not the healthy one has no partial flow
exactly when the scan for sinks failed and there was a flow to report. -/
theorem analyse_unnoticed_iff (engine : Engine) (g : Service) (page : Page) :
    ((engine.analyse g page).1 ≠ (engine.analyse g.store.service page).1 ∧
      ∀ flow ∈ (engine.analyse g page).1.flows, flow.isPartial = false) ↔
    (∃ fault, g.sinks (engine.scope page) = .error fault) ∧
      (engine.analyse g.store.service page).1.flows ≠ [] := by
  have hurl := engine.analyse_url g.store.service page
  cases hs : g.sinks (engine.scope page) with
  | ok sinks =>
    refine iff_of_false (fun ⟨hne, hwhole⟩ => ?_) (by simp)
    exact hne (analyse_eq_of_whole engine page hs hwhole)
  | error fault =>
    have hreport : (engine.analyse g page).1 = { url := page.url } := by
      unfold analyse
      rw [hs]
    rw [hreport]
    refine ⟨fun ⟨hne, _⟩ => ⟨⟨fault, rfl⟩, fun hnil => hne ?_⟩, fun ⟨_, hflows⟩ => ⟨?_, nofun⟩⟩
    · rw [← hurl, ← hnil]
    · intro heq
      rw [← heq] at hflows
      exact hflows rfl

end Engine

/-- A page with the statements `fetch(a); f()`, on which the children of the second call cannot be
had. -/
def brokenCallPage : Service where
  store := .ofLists
    [{ id := 1, type := .program }, { id := 2, type := .expressionStatement },
     { id := 3, type := .callExpression }, { id := 4, type := .identifier, code := "fetch" },
     { id := 5, type := .identifier, code := "a" }, { id := 6, type := .expressionStatement },
     { id := 7, type := .callExpression }, { id := 8, type := .identifier, code := "f" }]
    [{ source := 1, target := 2, relation := .ast, relationType := "body" },
     { source := 2, target := 3, relation := .ast, relationType := "expression" },
     { source := 3, target := 4, relation := .ast, relationType := "callee" },
     { source := 3, target := 5, relation := .ast, relationType := "arguments" },
     { source := 1, target := 6, relation := .ast, relationType := "body" },
     { source := 6, target := 7, relation := .ast, relationType := "expression" },
     { source := 7, target := 8, relation := .ast, relationType := "callee" }]
  outage query := if query = .outgoing 7 (some .ast) then some "connection reset" else none

/-- **One failed question empties the report**: the request is there, its flow does not depend on the
call that cannot be read, and the report looks like that of a page without requests. -/
theorem Engine.analyse_brokenCallPage_empty :
    let engine : Engine := ⟨{}, {}, {}, []⟩
    (engine.analyse brokenCallPage {}).1 = { url := "" } ∧
      (engine.analyse brokenCallPage.store.service {}).1.flows.map
        (fun flow => (flow.sinkCode, flow.isPartial)) = [("fetch(a)", false)] := by
  decide +kernel

end RequestFlow

/-
What a tracer answers after other queries. It starts each query without marks,
and all that it carries over (owners of `this`, call sites, targets of calls,
and the edges it has written) is what the graph at first would give. So a used
tracer and a new one answer alike, also after queries that failed or stopped
early.

A query may name an occurrence of `this` that is not in the graph. It fails, and
nothing is stored for it.
-/
import RequestFlow.Proofs.Analysis

namespace RequestFlow

variable {keep : Bool} {g b : Service} {this : NodeId}

/-! ## Occurrences of `this` that are not in the graph -/

namespace Service

theorem createEdge_of_missing (ho : ∀ query, g.outage query = none) {edge : Edge}
    (hm : g.store.hasNode edge.source = false) :
    g.createEdge edge = .error (.missingNode edge.source) :=
  createEdge_refused (by simp [refusal?, ho, Store.missingEnd?, hm])

/-- How a trace of an occurrence of `this` fails that is not in the graph: while its owners are
looked for, or at the latest when it is looked at itself. -/
def missingFault (keep : Bool) (g : Service) (this : NodeId) : GraphFault :=
  match g.owned keep this with
  | .error fault => fault
  | .ok _ => .missingNode this

end Service

namespace Resolver

/-- Looking for the owners of an occurrence of `this` that is not in the graph changes nothing. -/
theorem find_of_missing (keep : Bool) (ho : ∀ query, g.outage query = none)
    (hm : g.store.hasNode this = false) :
    (find keep g this).2 = g ∧
      ((find keep g this).1 = g.owned keep this ∨
        (find keep g this).1 = .error (g.missingFault keep this)) := by
  unfold Service.missingFault find Service.owned Service.outgoing Service.ask
  simp only [ho, bind, Except.bind]
  cases Resolution.ofEdges? (g.store.outgoing this (some .pointsTo)) with
  | some r => exact ⟨rfl, .inl rfl⟩
  | none =>
    cases hc : g.computeOwners this with
    | error fault => exact ⟨rfl, .inl rfl⟩
    | ok r =>
      cases keep with
      | false => exact ⟨rfl, .inl rfl⟩
      | true =>
        -- Owners are there to be stored, and the first write is refused.
        have hr : r.methods ≠ [] := by
          rcases ((Service.computeOwners_agree_or (.self g) this).of_ok hc).2 with rfl | hr
          · simp
          · exact hr.methods_ne_nil
        have hcommit : (Transaction.ofEdges (r.edges this)).commit g =
            (.error (.missingNode this), g) := by
          refine Service.commit_refused hr fun edge he => ?_
          have hs := (Resolution.of_mem_edges he).1
          rw [Service.createEdge_of_missing ho (by rw [hs]; exact hm), hs]
        simp only [if_true, hcommit, Service.mayStore, Service.ask, ho]
        exact ⟨trivial, .inr rfl⟩

/-- A resolver that is asked for an occurrence of `this` that is not in the graph fails as the graph
at first would have, or has owners of it that the graph had; and it answers on as before. -/
theorem Sound.resolve_of_missing {r : Resolver} (hs : Sound keep b r)
    (ho : ∀ query, b.outage query = none) (hm : b.store.hasNode this = false) :
    ((r.resolve keep this).1 = b.owned keep this ∨
      (r.resolve keep this).1 = .error (b.missingFault keep this)) ∧
    Sound keep b (r.resolve keep this).2 := by
  unfold Resolver.resolve
  cases hl : r.known.lookup this with
  | some res => exact ⟨.inl (hs.known _ (mem_of_lookup hl)).symm, hs⟩
  | none =>
    have hown : r.graph.owned keep this = b.owned keep this := hs.owned_eq hl
    have ho' : ∀ query, r.graph.outage query = none := by
      rw [hs.outage]
      exact ho
    have hm' : r.graph.store.hasNode this = false := by rwa [Store.hasNode_congr hs.nodes]
    obtain ⟨hgraph, hout⟩ := find_of_missing keep ho' hm'
    rw [Service.missingFault, hown, ← Service.missingFault] at hout
    generalize find keep r.graph this = found at hgraph hout
    obtain ⟨outcome, h⟩ := found
    obtain rfl : h = r.graph := hgraph
    cases outcome with
    | error fault => exact ⟨hout, hs⟩
    | ok res =>
      refine ⟨hout, hs.grow (.refl _) nofun nofun ?_⟩
      exact (hout.resolve_right nofun).symm

end Resolver

namespace Trace

/-- A trace of an occurrence of `this` that is not in the graph fails, whatever the tracer knows. -/
theorem run_thisOccurrence_of_missing {t : Tracer} (hs : t.resolver.Sound keep b)
    (ho : ∀ query, b.outage query = none) (hm : b.store.hasNode this = false) (setting : Setting)
    (descend : Request → Trace Unit) (context : Node) (scope : String) (depth : Nat) :
    (thisOccurrence (setting.keeping keep) descend this context scope depth).run.run t =
      (.error (b.missingFault keep this),
        { t with resolver := (t.resolver.resolve keep this).2 }) := by
  obtain ⟨hout, hnext⟩ := hs.resolve_of_missing ho hm
  have hnode : (t.resolver.resolve keep this).2.graph.node this = .error (.missingNode this) := by
    rw [← (Service.node_agree hnext.alike nofun).eq, Service.node_of_missing ho hm]
  have hkeep : (setting.keeping keep).options.materialise = keep := rfl
  unfold thisOccurrence
  rw [run_bind, run_resolve, hkeep]
  cases hr : (t.resolver.resolve keep this).1 with
  | error fault =>
    rw [hr] at hout
    have hfault : fault = b.missingFault keep this := by
      rcases hout with hown | hfault
      · rw [Service.missingFault, ← hown]
      · exact Except.error.inj hfault
    rw [hfault]
  | ok res =>
    rw [hr] at hout
    have hown : b.owned keep this = .ok res := (hout.resolve_right nofun).symm
    dsimp only
    rw [run_bind, run_ask, Tracer.graph, hnode, Service.missingFault, hown]

theorem thisOccurrence_sim_of_missing (ho : ∀ query, b.outage query = none) (hw : b.WritesAlike)
    (hm : b.store.hasNode this = false) (setting : Setting) (descend : Request → Trace Unit)
    (context : Node) (scope : String) (depth : Nat) :
    Sim .same (Tracer.Twins b b fun r r' => r.Sound keep b ∧ r'.Sound keep b) (fun _ => True)
      (thisOccurrence (setting.keeping keep) descend this context scope depth)
      (thisOccurrence (setting.keeping keep) descend this context scope depth) := by
  intro t t' hT
  obtain ⟨hs, hs'⟩ := hT.resolvers
  rw [run_thisOccurrence_of_missing hs ho hm, run_thisOccurrence_of_missing hs' ho hm]
  refine .fault (by decide) fun _ => ⟨rfl, hT.withResolvers (Resolver.bridge_self hw) ?_⟩
  exact ⟨(hs.resolve_of_missing ho hm).2, (hs'.resolve_of_missing ho hm).2⟩

end Trace

/-! ## Queries one after the other -/

namespace Tracer

variable {store : Store} {t t' : Tracer}

/-- A query ends alike on any two tracers over one store, whatever they have been asked before. -/
theorem query_ends_of_kept (hk : Run.Kept keep store.service t)
    (hk' : Run.Kept keep store.service t') (setting : Trace.Setting) (target : Target)
    (context : NodeId) (slices : SliceSet) :
    Ends .same (Twins store.service store.service
        fun r r' => r.Sound keep store.service ∧ r'.Sound keep store.service) (fun _ => True)
      (t.query (setting.keeping keep) target context slices)
      (t'.query (setting.keeping keep) target context slices) := by
  by_cases he : ∀ id, target = .this id → store.service.store.hasNode id = true
  · exact query_ends (.self _) nofun (Resolver.bridge_self (Service.writesAlike_service store))
      (hk.aligned hk') setting ⟨nofun, he⟩ slices
  · -- The occurrence of `this` is not in the graph, and both queries fail in the same way.
    simp only [not_forall, Bool.not_eq_true] at he
    obtain ⟨id, rfl, hm⟩ := he
    refine (Trace.node_sim (.self _) nofun).bind (fun node _ => ?_) _ _
      ((hk.aligned hk').twins setting.options.deadline slices)
    exact Trace.thisOccurrence_sim_of_missing (fun _ => rfl) (Service.writesAlike_service store) hm
      _ _ node "" 0

/-- A query: what it asks for, from which statement, and what it adds slices to. -/
structure Query where
  target : Target
  context : NodeId
  slices : SliceSet := {}

/-- The tracer after queries, however each of them ended. -/
def after (setting : Trace.Setting) (t : Tracer) (queries : List Query) : Tracer :=
  queries.foldl (fun t q => (t.query setting q.target q.context q.slices).2) t

theorem kept_after (hk : Run.Kept keep store.service t) (setting : Trace.Setting)
    (queries : List Query) :
    Run.Kept keep store.service (t.after (setting.keeping keep) queries) := by
  induction queries generalizing t with
  | nil => exact hk
  | cons q rest ih =>
    have hnext := (query_ends_of_kept hk hk setting q.target q.context q.slices).same.2
    exact ih ⟨hnext.resolvers.1, hnext.left⟩

/-- **Queries do not influence each other.** After any queries over a store, those that failed or
were truncated included, a further one has the outcome, the slices and the truncation that it has on
a new tracer over the store as it was at first. -/
theorem query_after (store : Store) (setting : Trace.Setting) (earlier : List Query)
    (target : Target) (context : NodeId) :
    let new := Tracer.new store.service
    let asked := (new.after setting earlier).query setting target context
    let first := new.query setting target context
    asked.1 = first.1 ∧ asked.2.slices = first.2.slices ∧
      asked.2.truncation = first.2.truncation := by
  have hnew := Run.Kept.new setting.options.materialise store.service
  have hused := kept_after hnew setting earlier
  obtain ⟨hout, htwins⟩ := (query_ends_of_kept hused hnew setting target context {}).same
  exact ⟨hout, htwins.slices, htwins.truncation⟩

end Tracer

end RequestFlow

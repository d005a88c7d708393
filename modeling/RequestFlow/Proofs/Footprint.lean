/-
What an analysis writes. A graph is written to in one place only, where the
owners of an occurrence of `this` are stored, and there the writes are made up to
the first that is refused. So whatever the page, and whichever questions fail on
the way, the analysis adds edges that store owners and changes nothing else.
-/
import RequestFlow.Proofs.Analysis
import RequestFlow.Proofs.Trace.Steps

namespace RequestFlow

/-- The edge leads from an occurrence of `this` to an owner, or to what establishes one. -/
structure Edge.StoresOwner (edge : Edge) : Prop where
  relation : edge.relation = .pointsTo
  marks :
    edge.relationType = "top" ∧ (edge.arguments = "" ∨ edge.arguments = "pointsTo=window") ∨
    edge.relationType = "owner" ∧ (edge.arguments = "" ∨ edge.arguments = "pointsTo=eventSelector")

theorem Resolution.storesOwner {r : Resolution} {this : NodeId} {edge : Edge}
    (he : edge ∈ r.edges this) : edge.StoresOwner := by
  refine ⟨(of_mem_edges he).2, ?_⟩
  rw [edges, List.mem_append, List.mem_flatMap, List.mem_map] at he
  rcases he with ⟨m, -, he⟩ | ⟨event, -, rfl⟩
  · rw [attachmentEdges] at he
    split at he
    · rw [List.mem_singleton.mp he]
      exact .inl ⟨rfl, .inr rfl⟩
    · simp only [List.mem_cons, List.not_mem_nil, or_false] at he
      rcases he with rfl | rfl
      · exact .inl ⟨rfl, .inl rfl⟩
      · exact .inr ⟨rfl, .inl rfl⟩
  · exact .inr ⟨rfl, .inr rfl⟩

namespace Service

variable {keep : Bool} {g h h' : Service} {new new' : List Edge}

/-- From `g` to `h` owners of `this` have been stored, in edges that are new and each written once;
nothing at all, unless `keep` says to store them. -/
structure Stored (keep : Bool) (g h : Service) (new : List Edge) : Prop extends g.Grown h new where
  storesOwner : ∀ edge ∈ new, edge.StoresOwner
  ends : ∀ edge ∈ new, g.store.hasNode edge.source = true ∧ g.store.hasNode edge.target = true
  fresh : ∀ edge ∈ new, edge ∉ g.store.edges
  nodup : new.Nodup
  unless_kept : keep = false → h = g

namespace Stored

theorem refl (keep : Bool) (g : Service) : g.Stored keep g [] where
  toGrown := .refl g
  storesOwner := nofun
  ends := nofun
  fresh := nofun
  nodup := .nil
  unless_kept _ := rfl

theorem trans (hg : g.Stored keep h new) (hh : h.Stored keep h' new') :
    g.Stored keep h' (new ++ new') where
  toGrown := hg.toGrown.trans hh.toGrown
  storesOwner edge hm := (List.mem_append.mp hm).elim (hg.storesOwner edge) (hh.storesOwner edge)
  ends edge hm := by
    rcases List.mem_append.mp hm with hm | hm
    · exact hg.ends edge hm
    · have hends := hh.ends edge hm
      rwa [Store.hasNode_congr hg.nodes, Store.hasNode_congr hg.nodes] at hends
  fresh edge hm := by
    rcases List.mem_append.mp hm with hm | hm
    · exact hg.fresh edge hm
    · exact fun he => hh.fresh edge hm (hg.mem_edges.mpr (.inl he))
  nodup := by
    refine List.nodup_append.mpr ⟨hg.nodup, hh.nodup, ?_⟩
    rintro edge hm _ hm' rfl
    exact hh.fresh edge hm' (hg.mem_edges.mpr (.inr hm))
  unless_kept hk := (hh.unless_kept hk).trans (hg.unless_kept hk)

/-- Stored owners make no difference to the questions of the analyses. -/
theorem alike (hg : g.Stored keep h new) : Alike .same g h :=
  .of_outage hg.outage hg.nodes (hg.properEdges fun edge hm => (hg.storesOwner edge hm).relation)

/-- An edge that has been stored differs from all others. -/
theorem count_eq_one (hg : g.Stored keep h new) {edge : Edge} (hm : edge ∈ new) :
    h.store.edges.toList.count edge = 1 := by
  have hold : g.store.edges.toList.count edge = 0 := by
    rw [List.count_eq_zero, Array.mem_toList_iff]
    exact hg.fresh edge hm
  rw [hg.edges, List.count_append, hold, hg.nodup.count, if_pos hm]

end Stored

/-- However a transaction ends, it stores some of its edges. -/
theorem commit_stored {edges : List Edge} (hs : ∀ edge ∈ edges, edge.StoresOwner) :
    ∃ new, g.Stored true ((Transaction.ofEdges edges).commit g).2 new := by
  have hwritten : ∀ {h : Service} {sound : List Edge}, (∀ edge ∈ sound, edge ∈ edges) →
      (∀ edge ∈ sound, g.refusal? edge = none) → g.Grown h (g.additions sound) →
      g.Stored true h (g.additions sound) := by
    intro h sound hsub hnone hg
    refine ⟨hg, fun edge hm => ?_, fun edge hm => ?_, fun edge hm => ?_, nodup_additions sound, nofun⟩
    · exact hs edge (hsub edge (mem_additions.mp hm).1)
    · exact (refusal?_eq_none.mp (hnone edge (mem_additions.mp hm).1)).2
    · exact (mem_additions.mp hm).2
  rcases Transaction.commit_cases g edges with
    ⟨hall, h, hrun, hg⟩ | ⟨before, bad, after, fault, h, rfl, hb, -, hrun, hg⟩
  · rw [hrun]
    exact ⟨_, hwritten (fun _ hm => hm) hall hg⟩
  · rw [hrun]
    exact ⟨_, hwritten (fun edge hm => List.mem_append_left _ hm) hb hg⟩

end Service

namespace Resolver

theorem find_stored (keep : Bool) (g : Service) (this : NodeId) :
    ∃ new, g.Stored keep (find keep g this).2 new := by
  unfold find
  split
  · exact ⟨[], .refl keep g⟩
  split
  · exact ⟨[], .refl keep g⟩
  split
  · exact ⟨[], .refl keep g⟩
  next resolution _ =>
  cases keep with
  | false => exact ⟨[], .refl false g⟩
  | true => exact Service.commit_stored fun edge hm => Resolution.storesOwner hm

theorem resolve_stored (keep : Bool) (r : Resolver) (this : NodeId) :
    ∃ new, r.graph.Stored keep (r.resolve keep this).2.graph new := by
  unfold resolve
  split
  · exact ⟨[], .refl keep r.graph⟩
  · have hfind := find_stored keep r.graph this
    generalize find keep r.graph this = found at hfind
    obtain ⟨outcome, graph⟩ := found
    cases outcome with
    | ok resolution => exact hfind
    | error fault => exact hfind

end Resolver

/-- A tracer is one for `g` still, whatever owners it has stored. -/
theorem Tracer.Honest.resolved {g : Service} {t : Tracer} (ht : t.Honest g) (keep : Bool)
    (this : NodeId) :
    Tracer.Honest g { t with resolver := (t.resolver.resolve keep this).2 } := by
  obtain ⟨new, hs⟩ := t.resolver.resolve_stored keep this
  exact ⟨ht.alike.trans (.self _) hs.alike, ht.sites, ht.targets⟩

/-! ## Traces -/

namespace Trace

variable {α β : Type} {keep : Bool} {setting : Setting}

/-- However the trace ends, it has done nothing to the graph but store owners. -/
def Stores (keep : Bool) (m : Trace α) : Prop :=
  ∀ t : Tracer, ∃ new, t.graph.Stored keep (m.run.run t).2.graph new

namespace Stores

/-- A trace that leaves the graph alone. -/
theorem of_same {m : Trace α} (h : ∀ t, (m.run.run t).2.graph = t.graph) : Stores keep m :=
  fun t => ⟨[], by rw [h]; exact .refl keep t.graph⟩

theorem bind {m : Trace α} {f : α → Trace β} (hm : Stores keep m) (hf : ∀ a, Stores keep (f a)) :
    Stores keep (m >>= f) := by
  intro t
  obtain ⟨new, hfirst⟩ := hm t
  rw [run_bind]
  generalize m.run.run t = ended at hfirst
  obtain ⟨outcome, t'⟩ := ended
  cases outcome with
  | error fault => exact ⟨new, hfirst⟩
  | ok a =>
    obtain ⟨new', hrest⟩ := hf a t'
    exact ⟨new ++ new', hfirst.trans hrest⟩

theorem remembered {table : Tracer → List (NodeId × α)} {note : List (NodeId × α) → Tracer → Tracer}
    (hn : ∀ entries t, (note entries t).graph = t.graph)
    (question : Service → NodeId → Except GraphFault α) (id : NodeId) :
    Stores keep (remembered table note question id) :=
  of_same (remembered_keeps_field hn question id)

theorem congruence (setting : Setting) :
    Congruence setting fun m _ => Stores setting.options.materialise m where
  pure _ := of_same fun _ => rfl
  bind := bind
  ask _ := of_same fun _ => rfl
  callSites _ := by
    unfold callSites
    exact remembered (by intros; rfl) _ _
  callTarget? _ := remembered (by intros; rfl) _ _
  emit _ := of_same fun _ => rfl
  resolve this t := by
    rw [run_resolve]
    exact t.resolver.resolve_stored _ this

theorem follow (setting : Setting) (levels : Nat) (r : Request) :
    Stores setting.options.materialise (follow setting levels r) :=
  (congruence setting).follow (of_same fun _ => rfl) (fun _ => of_same fun _ => rfl)
    (of_same fun _ => rfl) (fun _ => of_same fun _ => rfl) levels r

end Stores

end Trace

theorem Tracer.query_stored (setting : Trace.Setting) (t : Tracer) (target : Tracer.Target)
    (context : NodeId) (slices : SliceSet) :
    ∃ new, t.graph.Stored setting.options.materialise (t.query setting target context slices).2.graph
      new :=
  (Trace.Stores.congruence setting).answering (P := fun _ => True) trivial (Trace.follow setting)
    (Trace.follow setting) (fun levels q _ => .follow setting levels q) target context
    (t.started setting.options.deadline slices)

/-! ## The analysis -/

theorem Run.flows_stored (run : Run) (t : Tracer) (sinks : List Sink) :
    ∃ new, t.graph.Stored run.setting.options.materialise (run.flows t sinks).2.graph new := by
  refine run.flows_keeps (J := fun t' => ∃ new, t.graph.Stored _ t'.graph new) ?_
    ⟨[], .refl _ _⟩ sinks
  rintro t' target statement ⟨new, hstored⟩
  obtain ⟨new', hquery⟩ := Tracer.query_stored (run.within t'.deadline) t' target statement {}
  exact ⟨new ++ new', hstored.trans hquery⟩

/-- **An analysis only adds owners of `this`.** It leaves the nodes and edges of the graph as they
are, and the edges that it adds store owners, have both ends in the graph and differ from all other
edges. Where owners are not to be stored, nothing is added. Questions that fail make no difference,
nor does it make one when a deadline passes. -/
theorem Engine.analyse_adds (engine : Engine) (g : Service) (page : Page) :
    let after := (engine.analyse g page).2
    after.outage = g.outage ∧ after.store.nodes = g.store.nodes ∧
    (∃ new, after.store.edges.toList = g.store.edges.toList ++ new ∧
      after.store.created.toList = g.store.created.toList ++ new ∧
      ∀ edge ∈ new, edge.StoresOwner ∧ after.store.hasNode edge.source = true ∧
        after.store.hasNode edge.target = true ∧ after.store.edges.toList.count edge = 1) ∧
    (engine.config.materialise = false → after = g) := by
  have hstored : ∃ new, g.Stored engine.config.materialise (engine.analyse g page).2 new := by
    unfold analyse
    split
    · exact ⟨[], .refl _ g⟩
    · exact (engine.run page).flows_stored ((engine.run page).tracer g) _
  obtain ⟨new, hs⟩ := hstored
  refine ⟨hs.outage, hs.nodes, ⟨new, hs.edges, hs.created, fun edge hm => ?_⟩, hs.unless_kept⟩
  have hends := hs.ends edge hm
  rw [← Store.hasNode_congr hs.nodes, ← Store.hasNode_congr hs.nodes] at hends
  exact ⟨hs.storesOwner edge hm, hends.1, hends.2, hs.count_eq_one hm⟩

/-- A page with the statement `fetch(this.u)`, into which data flows as `this` from a node that does
not exist. -/
def danglingPage : Store :=
  .ofLists
    [{ id := 1, type := .program }, { id := 2, type := .expressionStatement },
     { id := 3, type := .callExpression }, { id := 4, type := .identifier, code := "fetch" },
     { id := 5, type := .memberExpression }, { id := 6, type := .thisExpression },
     { id := 7, type := .identifier, code := "u" }]
    [{ source := 1, target := 2, relation := .ast, relationType := "body" },
     { source := 2, target := 3, relation := .ast, relationType := "expression" },
     { source := 3, target := 4, relation := .ast, relationType := "callee" },
     { source := 3, target := 5, relation := .ast, relationType := "arguments" },
     { source := 5, target := 6, relation := .ast, relationType := "object" },
     { source := 5, target := 7, relation := .ast, relationType := "property" },
     { source := 9, target := 2, relation := .pdg, arguments := "this" }]

namespace danglingPage

def engine : Engine := ⟨{}, {}, {}, []⟩

/-- The edge that stores the window as owner. -/
def owner : Edge :=
  { source := 6, target := 1, relation := .pointsTo, relationType := "top",
    arguments := "pointsTo=window" }

end danglingPage

/-- The flow is cut short after the window has been stored as owner: by the missing node or, where the
deadline has passed by then, before it is come to. -/
theorem Engine.analyse_adds_danglingPage :
    ∀ page ∈ [({} : Page), { deadline := .past }],
      let after := danglingPage.engine.analyse danglingPage.service page
      after.1.flows.map (·.isPartial) = [true] ∧
      after.2.store.created.toList = [danglingPage.owner] ∧
      after.2.store.edges.toList.count danglingPage.owner = 1 := by
  have hruns : ∀ page ∈ [({} : Page), { deadline := .past }],
      let after := danglingPage.engine.analyse danglingPage.service page
      after.1.flows.map (·.isPartial) = [true] ∧
      after.2.store.created.toList = [danglingPage.owner] := by decide +kernel
  have hold : danglingPage.service.store.created.toList = [] := by decide +kernel
  intro page hpage after
  obtain ⟨hpartial, hwritten⟩ := hruns page hpage
  obtain ⟨-, -, ⟨new, -, hcreated, hnew⟩, -⟩ :=
    danglingPage.engine.analyse_adds danglingPage.service page
  have hmem : danglingPage.owner ∈ new := by
    rw [hold, List.nil_append] at hcreated
    rw [← hcreated, hwritten]
    exact List.mem_singleton_self _
  exact ⟨hpartial, hwritten, (hnew _ hmem).2.2.2⟩

end RequestFlow

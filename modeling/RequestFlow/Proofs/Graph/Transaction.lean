/-
Writing edges. A write appends an edge that is not there yet, or is refused: by
the connection, or because an end of the edge does not exist. A transaction makes
its writes in order up to the first that is refused, and what was written before
stays.
-/
import Mathlib.Data.Finset.Card
import RequestFlow.Proofs.Graph.Alike

namespace RequestFlow

/-- The end of an edge that there is no node for, the source first. -/
def Store.missingEnd? (store : Store) (edge : Edge) : Option NodeId :=
  [edge.source, edge.target].find? fun id => !store.hasNode id

theorem Store.missingEnd?_eq_none {store : Store} {edge : Edge} : store.missingEnd? edge = none ↔
    store.hasNode edge.source = true ∧ store.hasNode edge.target = true := by
  simp [missingEnd?]

namespace Service

variable {g h : Service} {new : List Edge}

/-- `h` is `g` with new edges at the end. -/
structure Grown (g h : Service) (new : List Edge) : Prop where
  outage : h.outage = g.outage
  nodes : h.store.nodes = g.store.nodes
  edges : h.store.edges.toList = g.store.edges.toList ++ new
  created : h.store.created.toList = g.store.created.toList ++ new

namespace Grown

theorem refl (g : Service) : Grown g g [] := ⟨rfl, rfl, by simp, by simp⟩

theorem trans {h' : Service} {new' : List Edge} (hg : Grown g h new) (hh : Grown h h' new') :
    Grown g h' (new ++ new') where
  outage := hh.outage.trans hg.outage
  nodes := hh.nodes.trans hg.nodes
  edges := by rw [hh.edges, hg.edges, List.append_assoc]
  created := by rw [hh.created, hg.created, List.append_assoc]

theorem mem_edges (hg : Grown g h new) {edge : Edge} :
    edge ∈ h.store.edges ↔ edge ∈ g.store.edges ∨ edge ∈ new := by
  rw [← Array.mem_toList_iff, hg.edges, List.mem_append, Array.mem_toList_iff]

theorem unchanged_iff (hg : Grown g h new) :
    h.store.edges = g.store.edges ∧ h.store.created = g.store.created ↔ new = [] := by
  rw [← Array.toList_inj, ← Array.toList_inj, hg.edges, hg.created]
  simp

theorem outgoing (hg : Grown g h new) (id : NodeId) (relation : Option Relation) :
    h.store.outgoing id relation = g.store.outgoing id relation ++
      new.filter fun e => relation.all (· == e.relation) && e.source == id := by
  rw [Store.outgoing_eq, Store.outgoing_eq, hg.edges, List.filter_append]

theorem properEdges (hg : Grown g h new) (hn : ∀ edge ∈ new, edge.relation = .pointsTo) :
    h.store.properEdges = g.store.properEdges := by
  have hnil : (new.filter fun e => e.relation != .pointsTo) = [] := by
    rw [List.filter_eq_nil_iff]
    intro edge he
    simp [hn edge he]
  rw [Store.properEdges, Store.properEdges, hg.edges, List.filter_append, hnil, List.append_nil]

end Grown

/-! ## Single writes -/

/-- Why a write is refused, if it is. -/
def refusal? (g : Service) (edge : Edge) : Option GraphFault :=
  match g.outage (.createEdge edge) with
  | some reason => some (.unavailable reason)
  | none => (g.store.missingEnd? edge).map .missingNode

theorem refusal?_eq_none {edge : Edge} : g.refusal? edge = none ↔
    g.outage (.createEdge edge) = none ∧ g.store.hasNode edge.source = true ∧
      g.store.hasNode edge.target = true := by
  rw [refusal?]
  cases g.outage (.createEdge edge) with
  | some reason => simp
  | none => simp [Store.missingEnd?_eq_none]

/-- Whether a write is refused does not depend on the edges. -/
theorem Grown.refusal? (hg : Grown g h new) (edge : Edge) : h.refusal? edge = g.refusal? edge := by
  simp only [Service.refusal?, Store.missingEnd?, hg.outage, Store.hasNode_congr hg.nodes]

/-- Those of the edges that a graph does not have, each once. -/
def additions (g : Service) (edges : List Edge) : List Edge :=
  (firsts edges).filter (· ∉ g.store.edges)

theorem mem_additions {edges : List Edge} {edge : Edge} :
    edge ∈ g.additions edges ↔ edge ∈ edges ∧ edge ∉ g.store.edges := by
  simp [additions, mem_firsts]

theorem additions_firsts (edges : List Edge) : g.additions (firsts edges) = g.additions edges := by
  rw [additions, firsts_of_nodup nodup_firsts, additions]

/-- Edges that are all new are all added. -/
theorem additions_of_new {edges : List Edge} (h : ∀ edge ∈ edges, edge ∉ g.store.edges) :
    g.additions edges = firsts edges := by
  rw [additions, List.filter_eq_self]
  intro edge hm
  simpa using h edge (mem_firsts.mp hm)

theorem nodup_additions (edges : List Edge) : (g.additions edges).Nodup :=
  nodup_firsts.sublist List.filter_sublist

/-- What is left to add after the first edge. -/
theorem additions_cons {edge : Edge} (hg : Grown g h (g.additions [edge])) (rest : List Edge) :
    g.additions (edge :: rest) = g.additions [edge] ++ h.additions rest := by
  have hrest : h.additions rest = ((firsts rest).filter (· ≠ edge)).filter (· ∉ g.store.edges) := by
    rw [additions, List.filter_filter]
    refine List.filter_congr fun e _ => ?_
    by_cases he : e = edge
    · subst he
      by_cases hm : e ∈ g.store.edges <;> simp [hg.mem_edges, mem_additions, hm]
    · simp [hg.mem_edges, mem_additions, he]
  rw [hrest, additions, additions, firsts_cons, firsts_cons, List.filter_cons, List.filter_cons]
  split <;> simp [firsts]

/-- A write that is refused. -/
theorem createEdge_refused {edge : Edge} {fault : GraphFault} (hf : g.refusal? edge = some fault) :
    g.createEdge edge = .error fault := by
  unfold refusal? at hf
  rw [createEdge, ask]
  cases ho : g.outage (.createEdge edge) with
  | some reason =>
    rw [ho] at hf
    cases hf
    rfl
  | none =>
    simp only [ho, Store.missingEnd?, List.find?_cons, List.find?_nil] at hf
    cases hs : g.store.hasNode edge.source with
    | false =>
      simp only [hs, Bool.not_false, Option.map_some, Option.some.injEq] at hf
      simp only [Store.createEdge, hs, ← hf]
      rfl
    | true =>
      cases ht : g.store.hasNode edge.target with
      | false =>
        simp only [hs, ht, Bool.not_true, Bool.not_false, Option.map_some, Option.some.injEq] at hf
        simp only [Store.createEdge, hs, ht, ← hf]
        rfl
      | true => simp [hs, ht] at hf

/-- A write that is not refused adds the edge, unless it is there. -/
theorem createEdge_grown {edge : Edge} (hf : g.refusal? edge = none) :
    ∃ h, g.createEdge edge = .ok h ∧ Grown g h (g.additions [edge]) := by
  obtain ⟨ho, hs, ht⟩ := refusal?_eq_none.mp hf
  rw [createEdge, ask, ho, additions, firsts_cons, List.filter_cons]
  by_cases he : edge ∈ g.store.edges
  · refine ⟨g, ?_, by simpa [he, firsts] using Grown.refl g⟩
    simp only [Store.createEdge, hs, ht, Store.hasEdge_iff.mpr he]
    rfl
  · have hno : g.store.hasEdge edge = false := by
      rw [Bool.eq_false_iff]
      exact fun h => he (Store.hasEdge_iff.mp h)
    refine ⟨{ g with store := g.store.writeEdge edge }, ?_, rfl, rfl, ?_, ?_⟩
    · simp only [Store.createEdge, hs, ht, hno]
      rfl
    · simp [he, firsts, Store.writeEdge, Store.insertEdge]
    · simp [he, firsts, Store.created_writeEdge]

end Service

/-! ## Transactions -/

namespace Transaction

variable {g : Service}

/-- The writes of a transaction are its edges without repetitions. -/
theorem pending_ofEdges (edges : List Edge) : (ofEdges edges).pending = firsts edges := by
  have hloop : ∀ seen : List Edge, (edges.foldl stage ⟨seen⟩).pending =
      edges.foldl (fun seen a => if a ∈ seen then seen else seen ++ [a]) seen := by
    induction edges with
    | nil => exact fun _ => rfl
    | cons edge rest ih =>
      intro seen
      rw [List.foldl_cons, List.foldl_cons, ← ih, stage]
      split <;> rfl
  exact hloop []

theorem length_firsts (edges : List Edge) : (firsts edges).length = edges.toFinset.card := by
  rw [← List.toFinset_card_of_nodup nodup_firsts]
  congr 1
  ext edge
  simp [mem_firsts]

/-- Writes are made up to the first that is refused. -/
theorem writeAll_cases (g : Service) (edges : List Edge) :
    ((∀ edge ∈ edges, g.refusal? edge = none) ∧
      ∃ h, writeAll g edges = (.ok (), h) ∧ g.Grown h (g.additions edges)) ∨
    ∃ before bad after fault h, edges = before ++ bad :: after ∧
      (∀ edge ∈ before, g.refusal? edge = none) ∧ g.refusal? bad = some fault ∧
      writeAll g edges = (.error fault, h) ∧ g.Grown h (g.additions before) := by
  induction edges generalizing g with
  | nil => exact .inl ⟨by simp, g, rfl, .refl g⟩
  | cons edge rest ih =>
    rw [writeAll]
    cases hf : g.refusal? edge with
    | some fault =>
      rw [Service.createEdge_refused hf]
      exact .inr ⟨[], edge, rest, fault, g, rfl, by simp, hf, rfl, .refl g⟩
    | none =>
      obtain ⟨h, hw, hg⟩ := Service.createEdge_grown hf
      simp only [hw]
      rcases ih h with
        ⟨hall, h', hrun, hg'⟩ | ⟨before, bad, after, fault, h', rfl, hb, hbad, hrun, hg'⟩
      · refine .inl ⟨?_, h', hrun, Service.additions_cons hg rest ▸ hg.trans hg'⟩
        simpa [hf, hg.refusal?] using hall
      · refine .inr ⟨edge :: before, bad, after, fault, h', rfl, ?_, hg.refusal? bad ▸ hbad, hrun,
          Service.additions_cons hg before ▸ hg.trans hg'⟩
        simpa [hf, hg.refusal?] using hb

/-- Writes none of which is refused are all made. -/
theorem writeAll_grown {edges : List Edge} (hf : ∀ edge ∈ edges, g.refusal? edge = none) :
    ∃ h, writeAll g edges = (.ok (), h) ∧ g.Grown h (g.additions edges) := by
  rcases writeAll_cases g edges with ⟨-, hrun⟩ | ⟨before, bad, after, fault, h, rfl, -, hbad, -⟩
  · exact hrun
  · have hnone := hf bad (by simp)
    rw [hbad] at hnone
    cases hnone

/-- A commit makes each of its writes once, up to the first that is refused. -/
theorem commit_cases (g : Service) (edges : List Edge) :
    ((∀ edge ∈ edges, g.refusal? edge = none) ∧
      ∃ h, (ofEdges edges).commit g = (.ok edges.toFinset.card, h) ∧
        g.Grown h (g.additions edges)) ∨
    ∃ before bad after fault h, edges = before ++ bad :: after ∧
      (∀ edge ∈ before, g.refusal? edge = none) ∧ g.refusal? bad = some fault ∧
      (ofEdges edges).commit g = (.error fault, h) ∧ g.Grown h (g.additions before) := by
  rw [commit, pending_ofEdges]
  rcases writeAll_cases g (firsts edges) with
    ⟨hall, h, hrun, hg⟩ | ⟨before, bad, after, fault, h, hsplit, hb, hbad, hrun, hg⟩
  · rw [Service.additions_firsts] at hg
    refine .inl ⟨fun edge hm => hall edge (mem_firsts.mpr hm), h, ?_, hg⟩
    rw [hrun, ← length_firsts]
    rfl
  · obtain ⟨before', after', rfl, rfl⟩ := exists_append_of_firsts hsplit
    rw [Service.additions_firsts] at hg
    refine .inr ⟨before', bad, after', fault, h, rfl,
      fun edge hm => hb edge (mem_firsts.mpr hm), hbad, ?_, hg⟩
    rw [hrun]
    rfl

/-- A commit makes its writes in order, each once, up to the first that is refused. Where none is
refused it answers how many there are, and the graph has them all. Where one is refused, the writes
before it stay, and the graph is as it was only if it had those edges already. -/
theorem commit_writes (g : Service) (edges : List Edge) :
    ((∀ edge ∈ edges, g.refusal? edge = none) ∧
      ∃ h, (ofEdges edges).commit g = (.ok edges.toFinset.card, h) ∧
        g.Grown h (g.additions edges) ∧ ∀ edge ∈ edges, edge ∈ h.store.edges) ∨
    ∃ before bad after fault h, edges = before ++ bad :: after ∧
      (∀ edge ∈ before, g.refusal? edge = none) ∧ g.refusal? bad = some fault ∧
      (ofEdges edges).commit g = (.error fault, h) ∧ g.Grown h (g.additions before) ∧
      (h.store.edges = g.store.edges ∧ h.store.created = g.store.created ↔
        ∀ edge ∈ before, edge ∈ g.store.edges) := by
  rcases commit_cases g edges with
    ⟨hall, h, hrun, hg⟩ | ⟨before, bad, after, fault, h, hsplit, hb, hbad, hrun, hg⟩
  · refine .inl ⟨hall, h, hrun, hg, fun edge hm => ?_⟩
    by_cases he : edge ∈ g.store.edges
    · exact hg.mem_edges.mpr (.inl he)
    · exact hg.mem_edges.mpr (.inr (Service.mem_additions.mpr ⟨hm, he⟩))
  · refine .inr ⟨before, bad, after, fault, h, hsplit, hb, hbad, hrun, hg, ?_⟩
    rw [hg.unchanged_iff, List.eq_nil_iff_forall_not_mem]
    simp [Service.mem_additions]

end Transaction

/-- A page with two nodes and no edge. -/
def pairPage : Store :=
  .ofLists [{ id := 1, type := .thisExpression }, { id := 2, type := .identifier }] []

/-- A commit that fails leaves the edge it wrote first. -/
theorem Transaction.commit_pairPage_kept :
    let first : Edge := { source := 1, target := 2, relation := .pointsTo, relationType := "top" }
    let second : Edge := { source := 1, target := 9, relation := .pointsTo, relationType := "owner" }
    let (outcome, after) := (Transaction.ofEdges [first, second]).commit pairPage.service
    outcome = .error (.missingNode 9) ∧ pairPage.edges = #[] ∧ pairPage.created = #[] ∧
      after.store.edges = #[first] ∧ after.store.created = #[first] := by
  decide +kernel

end RequestFlow

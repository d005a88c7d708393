/-
The in-memory graph as a list of nodes and a list of edges: what each question
answers in terms of the two, and the shapes of graphs that the analyses rely on.
-/
import Mathlib.Data.List.Basic
import Mathlib.Logic.Relation
import RequestFlow.Graph.Service
import RequestFlow.Proofs.Order

namespace RequestFlow

/-! ## Places -/

section Places

variable {α : Type} {p : α → Bool} {l : List α}

theorem lt_of_mem_places {i : Nat} (h : i ∈ places p l) : i < l.length := by
  simp only [places, List.mem_map, List.mem_filter] at h
  obtain ⟨entry, ⟨hm, -⟩, rfl⟩ := h
  exact List.snd_lt_of_mem_zipIdx hm

/-- At the places of the elements that satisfy `p` stand those elements, in order. -/
theorem filterMap_places : (places p l).filterMap (l[·]?) = l.filter p := by
  have hstand : (l.zipIdx.filter (p ·.1)).filterMap ((l[·]?) ∘ (·.2)) =
      (l.zipIdx.filter (p ·.1)).map (·.1) := by
    rw [← List.filterMap_eq_map]
    refine List.filterMap_congr fun entry hm => ?_
    exact List.mem_zipIdx_iff_getElem?.mp (List.mem_filter.mp hm).1
  calc (places p l).filterMap (l[·]?)
      = (l.zipIdx.filter (p ·.1)).map (·.1) := by rw [places, List.filterMap_map, hstand]
    _ = (l.zipIdx.map (·.1)).filter p := by rw [List.filter_map]; rfl
    _ = l.filter p := by rw [List.zipIdx_map_fst]

end Places

/-- A pattern selects the nodes that have the kind and the code that it asks for. -/
theorem NodePattern.matches_iff {pattern : NodePattern} {node : Node} :
    pattern.matches node = true ↔
      (∀ type, pattern.type = some type → node.type = type) ∧
        ∀ code, pattern.code = some code → node.code = code := by
  simp only [NodePattern.matches, Bool.and_eq_true, Option.all_eq_true, beq_iff_eq,
    eq_comm (a := node.type), eq_comm (a := node.code)]

namespace Store

variable {store other : Store} {id : NodeId} {node : Node}

theorem node?_eq_some : store.node? id = some node ↔ node ∈ store.nodes ∧ node.id = id := by
  simp only [node?, Option.bind_eq_some_iff, store.slots_iff]
  constructor
  · rintro ⟨i, hid, hi⟩
    rw [hi] at hid
    exact ⟨Array.mem_of_getElem? hi, by simpa using hid⟩
  · rintro ⟨hm, rfl⟩
    obtain ⟨i, hi⟩ := Array.mem_iff_getElem?.mp hm
    exact ⟨i, by rw [hi]; rfl, hi⟩

/-- The node of an id has that id. -/
theorem id_of_node? (h : store.node? id = some node) : node.id = id := (node?_eq_some.mp h).2

theorem node?_congr (h : store.nodes = other.nodes) (id : NodeId) :
    store.node? id = other.node? id := by
  ext node
  rw [node?_eq_some, node?_eq_some, h]

theorem hasNode_iff : store.hasNode id = true ↔ ∃ node, store.node? id = some node :=
  Option.isSome_iff_exists

theorem hasNode_congr (h : store.nodes = other.nodes) (id : NodeId) :
    store.hasNode id = other.hasNode id := by
  rw [hasNode, hasNode, node?_congr h]

theorem service_node (h : store.node? id = some node) : store.service.node id = .ok node := by
  have hnode : store.service.node? id = .ok (some node) := congrArg Except.ok h
  simp only [Service.node, hnode, bind, Except.bind]

/-- The node is the one that the store has for its id. -/
def Holds (store : Store) (node : Node) : Prop := store.node? node.id = some node

theorem Holds.hasNode (h : store.Holds node) : store.hasNode node.id = true :=
  hasNode_iff.mpr ⟨node, h⟩

theorem holds_of_node? (h : store.node? id = some node) : store.Holds node := by
  rwa [Holds, id_of_node? h]

/-- Nodes of one id are one node. -/
theorem Holds.eq {a b : Node} (ha : store.Holds a) (hb : store.Holds b) (h : a.id = b.id) :
    a = b := by
  rw [Holds, h, hb] at ha
  exact (Option.some.inj ha).symm

theorem holds_iff_mem : store.Holds node ↔ node ∈ store.nodes := by
  simp [Holds, node?_eq_some]

theorem mem_matching {pattern : NodePattern} :
    node ∈ store.matching pattern ↔ store.Holds node ∧ pattern.matches node = true := by
  rw [matching, mem_sortBy, List.mem_filter, Array.mem_toList_iff, holds_iff_mem]

theorem matching_congr (h : store.nodes = other.nodes) (pattern : NodePattern) :
    store.matching pattern = other.matching pattern := by
  rw [matching, matching, h]

theorem node?_insertNode (store : Store) (node : Node) (id : NodeId) :
    (store.insertNode node).node? id = if id = node.id then some node else store.node? id := by
  unfold insertNode node?
  split
  · next i hi =>
    have hslot := (store.slots_iff _ _).mp hi
    dsimp only
    split
    · next he =>
      subst he
      exact Option.bind_eq_some_iff.mpr ⟨i, hi, by simp⟩
    · next hne =>
      cases hj : store.slots[id]? with
      | none => rfl
      | some j =>
        have hij : i ≠ j := by
          rintro rfl
          rw [(store.slots_iff _ _).mp hj] at hslot
          exact hne (Option.some.inj hslot)
        simp [Array.getElem?_set, hij]
  · next hi =>
    dsimp only
    rw [Std.TreeMap.getElem?_insert]
    by_cases he : id = node.id
    · simp [he]
    · have hc : compare node.id id ≠ .eq := by simpa using Ne.symm he
      rw [if_neg hc, if_neg he]
      cases hj : store.slots[id]? with
      | none => rfl
      | some j => simp [Array.getElem?_push, Nat.ne_of_lt (store.slot_lt hj)]

theorem node?_insertNode_self (h : node.id = id) :
    (store.insertNode node).node? id = some node := by
  rw [node?_insertNode, if_pos h.symm]

theorem ids_insertNode (store : Store) (node : Node) :
    (store.insertNode node).nodes.toList.map Node.id =
      if node.id ∈ store.nodes.toList.map Node.id then store.nodes.toList.map Node.id
      else store.nodes.toList.map Node.id ++ [node.id] := by
  have hmem : node.id ∈ store.nodes.toList.map Node.id ↔ ∃ i, store.slots[node.id]? = some i := by
    simp only [store.slots_iff, ← Array.getElem?_toList, ← List.getElem?_map, List.mem_iff_getElem?]
  rw [Store.insertNode]
  split
  · next i hi =>
    -- The new content takes the place of the old one, under the same id.
    have hid := (store.slots_iff _ _).mp hi
    rw [← Array.getElem?_toList, ← List.getElem?_map] at hid
    obtain ⟨hlt, hget⟩ := List.getElem?_eq_some_iff.mp hid
    rw [if_pos (hmem.mpr ⟨i, hi⟩), Array.toList_set, List.map_set, ← hget, List.set_getElem_self]
  · next hi =>
    rw [if_neg (by simp [hmem, hi]), Array.toList_push, List.map_append, List.map_singleton]

/-! ## Edges -/

/-- An index by places answers with the edges that it indexes. -/
theorem edgesAt_eq {index : Array Nat} {p : Edge → Bool}
    (h : index.toList = places p store.edges.toList) :
    store.edgesAt index = store.edges.toList.filter p := by
  rw [edgesAt, h, ← filterMap_places]
  simp only [Array.getElem?_toList]

theorem outgoing_eq (store : Store) (id : NodeId) (relation : Option Relation) :
    store.outgoing id relation =
      store.edges.toList.filter fun e => relation.all (· == e.relation) && e.source == id := by
  rw [outgoing, select, edgesAt_eq (store.bySource_eq id), List.filter_filter]

theorem incoming_eq (store : Store) (id : NodeId) (relation : Option Relation) :
    store.incoming id relation =
      store.edges.toList.filter fun e => relation.all (· == e.relation) && e.target == id := by
  rw [incoming, select, edgesAt_eq (store.byTarget_eq id), List.filter_filter]

theorem edges_insertNode (store : Store) (node : Node) :
    (store.insertNode node).edges = store.edges := by
  unfold insertNode
  split <;> rfl

theorem created_insertNode (store : Store) (node : Node) :
    (store.insertNode node).created = store.created := by
  unfold insertNode
  split <;> rfl

theorem outgoing_insertNode (store : Store) (node : Node) (id : NodeId) (relation : Option Relation) :
    (store.insertNode node).outgoing id relation = store.outgoing id relation := by
  rw [outgoing_eq, outgoing_eq, edges_insertNode]

theorem outgoing_insertEdge (store : Store) (edge : Edge) (id : NodeId) (relation : Option Relation) :
    (store.insertEdge edge).outgoing id relation = store.outgoing id relation
      ++ [edge].filter fun e => relation.all (· == e.relation) && e.source == id := by
  rw [outgoing_eq, outgoing_eq, ← List.filter_append, insertEdge, Array.toList_push]

theorem mem_outgoing {edge : Edge} {relation : Relation} :
    edge ∈ store.outgoing id (some relation) ↔
      edge ∈ store.edges ∧ edge.relation = relation ∧ edge.source = id := by
  simp [outgoing_eq, @eq_comm _ relation]

theorem mem_incoming {edge : Edge} {relation : Relation} :
    edge ∈ store.incoming id (some relation) ↔
      edge ∈ store.edges ∧ edge.relation = relation ∧ edge.target = id := by
  simp [incoming_eq, @eq_comm _ relation]

theorem hasEdge_iff {edge : Edge} : store.hasEdge edge = true ↔ edge ∈ store.edges := by
  have hat : edge ∈ store.edgesAt (store.bySource.getD edge.source #[]) ↔ edge ∈ store.edges := by
    rw [edgesAt_eq (store.bySource_eq edge.source)]
    simp
  rw [← hat, hasEdge, Array.any_eq_true', edgesAt]
  simp

/-- What stands at places of a graph stays there when edges are added. -/
theorem edgesAt_push {index : Array Nat} (h : ∀ i ∈ index, i < store.edges.size) (edge : Edge) :
    (store.insertEdge edge).edgesAt index = store.edgesAt index := by
  refine List.filterMap_congr fun i hi => ?_
  have hlt := h i (Array.mem_toList_iff.mp hi)
  simp [insertEdge, Array.getElem?_push, Nat.ne_of_lt hlt]

theorem created_insertEdge (store : Store) (edge : Edge) :
    (store.insertEdge edge).created = store.created :=
  congrArg List.toArray (edgesAt_push store.written_lt edge)

theorem created_writeEdge (store : Store) (edge : Edge) :
    (store.writeEdge edge).created = store.created.push edge := by
  have hold := edgesAt_push store.written_lt edge
  have hnew : (store.insertEdge edge).edges[store.edges.size]? = some edge := by simp [insertEdge]
  refine Array.ext' ?_
  rw [created, created, ← hold]
  simp only [edgesAt, writeEdge, Array.toList_push, List.filterMap_append, List.filterMap_cons, hnew]
  rfl

theorem outgoing_eq_nil {relation : Relation} (h : ∀ edge ∈ store.edges, edge.relation ≠ relation)
    (id : NodeId) : store.outgoing id (some relation) = [] := by
  rw [List.eq_nil_iff_forall_not_mem]
  intro edge hm
  exact h edge (mem_outgoing.mp hm).1 (mem_outgoing.mp hm).2.1

/-- All edges but the stored owners of `this`. -/
def properEdges (store : Store) : List Edge :=
  store.edges.toList.filter fun e => e.relation != .pointsTo

theorem mem_properEdges {edge : Edge} :
    edge ∈ store.properEdges ↔ edge ∈ store.edges ∧ edge.relation ≠ .pointsTo := by
  simp [properEdges]

theorem outgoing_eq_properEdges {relation : Relation} (h : relation ≠ .pointsTo) :
    store.outgoing id (some relation) =
      store.properEdges.filter fun e => relation == e.relation && e.source == id := by
  rw [outgoing_eq, properEdges, List.filter_filter]
  refine List.filter_congr fun e _ => ?_
  by_cases he : relation = e.relation
  · subst he; simp [h]
  · simp [he]

theorem incoming_eq_properEdges {relation : Relation} (h : relation ≠ .pointsTo) :
    store.incoming id (some relation) =
      store.properEdges.filter fun e => relation == e.relation && e.target == id := by
  rw [incoming_eq, properEdges, List.filter_filter]
  refine List.filter_congr fun e _ => ?_
  by_cases he : relation = e.relation
  · subst he; simp [h]
  · simp [he]

/-- The event edges into a node, among all edges into it. -/
theorem events_eq_properEdges :
    (store.incoming id none).filter (·.relation.isEvent) =
      store.properEdges.filter fun e => e.relation.isEvent && e.target == id := by
  rw [incoming_eq, properEdges, List.filter_filter, List.filter_filter]
  refine List.filter_congr fun e _ => ?_
  cases he : e.relation <;> simp [Relation.isEvent]

/-! ## Shapes of graphs -/

/-- The edge leads down the syntax tree. -/
def IsAst (store : Store) (edge : Edge) : Prop := edge ∈ store.edges ∧ edge.relation = .ast

/-- `b` is a child of `a` in the syntax tree. -/
def AstStep (store : Store) (a b : NodeId) : Prop :=
  ∃ edge, store.IsAst edge ∧ edge.source = a ∧ edge.target = b

/-- No node lies below itself. -/
def AstAcyclic (store : Store) : Prop := ∀ id, ¬ Relation.TransGen store.AstStep id id

/-- No node has two edges of the syntax tree leading to it. -/
def AstForest (store : Store) : Prop := ∀ id, (store.incoming id (some .ast)).length ≤ 1

theorem astForest_iff : store.AstForest ↔
    ((store.edges.toList.filter (·.relation == .ast)).map (·.target)).Nodup := by
  rw [List.nodup_iff_count]
  refine forall_congr' fun id => ?_
  rw [incoming_eq, ← List.countP_eq_length_filter, List.count, List.countP_map, List.countP_filter]
  have hsame : (fun e : Edge => (some Relation.ast).all (· == e.relation) && e.target == id) =
      fun e => ((· == id) ∘ Edge.target) e && e.relation == .ast := by
    funext e
    simp [Bool.and_comm, Bool.beq_comm]
  rw [hsame]

instance : Decidable store.AstForest := decidable_of_iff _ astForest_iff.symm

/-- The edge that leads to a node is the only one. -/
theorem AstForest.incoming_eq (hf : store.AstForest) {edge : Edge} (h : store.IsAst edge) :
    store.incoming edge.target (some .ast) = [edge] := by
  have hm : edge ∈ store.incoming edge.target (some .ast) := mem_incoming.mpr ⟨h.1, h.2, rfl⟩
  have hone := hf edge.target
  match hl : store.incoming edge.target (some .ast) with
  | [] => rw [hl] at hm; cases hm
  | [only] => rw [hl, List.mem_singleton] at hm; rw [hm]
  | _ :: _ :: _ => rw [hl] at hone; simp at hone

theorem AstForest.astStep_unique (hf : store.AstForest) {a b c : NodeId} (ha : store.AstStep a c)
    (hb : store.AstStep b c) : a = b := by
  obtain ⟨e, he, rfl, rfl⟩ := ha
  obtain ⟨e', he', rfl, ht⟩ := hb
  have hsame := hf.incoming_eq he
  rw [← ht, hf.incoming_eq he'] at hsame
  cases hsame
  rfl

/-- Both ends of every edge exist. -/
def Closed (store : Store) : Prop :=
  ∀ edge ∈ store.edges, store.hasNode edge.source = true ∧ store.hasNode edge.target = true

instance : Decidable store.Closed := inferInstanceAs (Decidable (∀ edge ∈ store.edges, _))

/-- A tree whose edges all lead to larger ids has no cycle. -/
theorem astAcyclic_of_lt
    (h : ∀ edge ∈ store.edges, edge.relation = .ast → edge.source < edge.target) :
    store.AstAcyclic := by
  have hlt : ∀ {a b}, Relation.TransGen store.AstStep a b → a < b := by
    intro a b hab
    induction hab with
    | single hs => obtain ⟨edge, ⟨hm, hr⟩, rfl, rfl⟩ := hs; exact h edge hm hr
    | tail _ hs ih =>
      obtain ⟨edge, ⟨hm, hr⟩, rfl, rfl⟩ := hs
      exact Nat.lt_trans ih (h edge hm hr)
  exact fun id hid => Nat.lt_irrefl id (hlt hid)

theorem isAst_iff_properEdges {edge : Edge} :
    store.IsAst edge ↔ edge ∈ store.properEdges ∧ edge.relation = .ast := by
  rw [IsAst, mem_properEdges]
  constructor
  · rintro ⟨hm, hr⟩; exact ⟨⟨hm, by simp [hr]⟩, hr⟩
  · rintro ⟨⟨hm, -⟩, hr⟩; exact ⟨hm, hr⟩

end Store

end RequestFlow

/-
The in-memory graph against two plain lists: the nodes in the order of their
insertions and the edges in theirs. After any sequence of changes the graph gives
the answers that the lists give, and every index stays within its array.
-/
import Mathlib.Data.List.TakeWhile
import RequestFlow.Proofs.Graph.Transaction

namespace RequestFlow

/-- A graph as lists: all insertions of nodes, the edges, and those of them written after
loading. -/
structure Ledger where
  inserted : List Node := []
  edges : List Edge := []
  created : List Edge := []
  deriving DecidableEq, Repr

namespace Ledger

/-- The last node inserted for an id. -/
def node? (ledger : Ledger) (id : NodeId) : Option Node :=
  ledger.inserted.reverse.find? (·.id == id)

/-- The nodes, an id at the place of its first insertion with the content of its last. -/
def nodes (ledger : Ledger) : List Node :=
  (firsts (ledger.inserted.map Node.id)).filterMap ledger.node?

def missingEnd? (ledger : Ledger) (edge : Edge) : Option NodeId :=
  [edge.source, edge.target].find? fun id => (ledger.node? id).isNone

def write (ledger : Ledger) (new : List Edge) : Ledger :=
  { ledger with edges := ledger.edges ++ new, created := ledger.created ++ new }

end Ledger

/-- What can be done to a graph. -/
inductive Change where
  | insertNode (node : Node)
  | insertEdge (edge : Edge)
  | createEdge (edge : Edge)
  | commit (edges : List Edge)
  deriving DecidableEq, Repr

/-- What a change answers; a commit answers with a number. -/
abbrev Change.Reply := Except GraphFault (Option Nat)

/-- Makes changes one after the other, and collects what they answer. -/
def Change.run {σ : Type} (step : σ → Change → Reply × σ) (start : σ) :
    List Change → List Reply × σ
  | [] => ([], start)
  | change :: rest =>
    let (reply, next) := step start change
    let (replies, last) := run step next rest
    (reply :: replies, last)

def Ledger.change (ledger : Ledger) : Change → Change.Reply × Ledger
  | .insertNode node => (.ok none, { ledger with inserted := ledger.inserted ++ [node] })
  | .insertEdge edge => (.ok none, { ledger with edges := ledger.edges ++ [edge] })
  | .createEdge edge => match ledger.missingEnd? edge with
    | some id => (.error (.missingNode id), ledger)
    | none => (.ok none, if edge ∈ ledger.edges then ledger else ledger.write [edge])
  | .commit edges =>
    let sound := edges.takeWhile (ledger.missingEnd? · == none)
    let reply := match edges.findSome? ledger.missingEnd? with
      | some id => .error (.missingNode id)
      | none => .ok (some edges.toFinset.card)
    (reply, ledger.write ((firsts sound).filter (· ∉ ledger.edges)))

def Store.change (store : Store) : Change → Change.Reply × Store
  | .insertNode node => (.ok none, store.insertNode node)
  | .insertEdge edge => (.ok none, store.insertEdge edge)
  | .createEdge edge => match store.service.createEdge edge with
    | .ok g => (.ok none, g.store)
    | .error fault => (.error fault, store)
  | .commit edges =>
    let (outcome, g) := (Transaction.ofEdges edges).commit store.service
    (outcome.map some, g.store)

namespace Store

variable {store : Store} {ledger : Ledger}

/-! ## What a change keeps -/

/-- The graph has the nodes and edges of the lists, in their order. -/
structure Mirrors (store : Store) (ledger : Ledger) : Prop where
  ids : store.nodes.toList.map Node.id = firsts (ledger.inserted.map Node.id)
  node? : ∀ id, store.node? id = ledger.node? id
  edges : store.edges.toList = ledger.edges
  created : store.created.toList = ledger.created
  created_nodup : ledger.created.Nodup
  created_sublist : ledger.created.Sublist ledger.edges

namespace Mirrors

theorem empty : Mirrors ∅ {} where
  ids := rfl
  node? _ := rfl
  edges := rfl
  created := rfl
  created_nodup := List.nodup_nil
  created_sublist := .refl []

theorem mem_edges (h : store.Mirrors ledger) {edge : Edge} :
    edge ∈ store.edges ↔ edge ∈ ledger.edges := by
  rw [← Array.mem_toList_iff, h.edges]

theorem missingEnd? (h : store.Mirrors ledger) (edge : Edge) :
    store.missingEnd? edge = ledger.missingEnd? edge := by
  simp only [Store.missingEnd?, Ledger.missingEnd?, hasNode, h.node?, Option.not_isSome]

theorem refusal? (h : store.Mirrors ledger) (edge : Edge) :
    store.service.refusal? edge = (ledger.missingEnd? edge).map .missingNode := by
  rw [← h.missingEnd?]
  rfl

theorem insertNode (h : store.Mirrors ledger) (node : Node) :
    (store.insertNode node).Mirrors { ledger with inserted := ledger.inserted ++ [node] } where
  ids := by
    rw [ids_insertNode, h.ids, List.map_append, List.map_singleton, firsts_concat]
    simp only [mem_firsts]
  node? id := by
    rw [node?_insertNode, h.node?]
    simp only [Ledger.node?, List.reverse_append, List.reverse_singleton, List.singleton_append,
      List.find?_cons]
    by_cases hid : id = node.id
    · simp [hid]
    · have hne : (node.id == id) = false := by simpa using Ne.symm hid
      rw [if_neg hid, hne]
  edges := by rw [edges_insertNode, h.edges]
  created := by rw [created_insertNode, h.created]
  created_nodup := h.created_nodup
  created_sublist := h.created_sublist

theorem insertEdge (h : store.Mirrors ledger) (edge : Edge) :
    (store.insertEdge edge).Mirrors { ledger with edges := ledger.edges ++ [edge] } where
  ids := h.ids
  node? := h.node?
  edges := by rw [Store.insertEdge, Array.toList_push, h.edges]
  created := by rw [created_insertEdge, h.created]
  created_nodup := h.created_nodup
  created_sublist := h.created_sublist.trans (List.sublist_append_left _ _)

/-- Edges that are new may be written. -/
theorem write (h : store.Mirrors ledger) {g : Service} {new : List Edge}
    (hg : store.service.Grown g new) (hn : new.Nodup) (hnew : ∀ edge ∈ new, edge ∉ ledger.edges) :
    g.store.Mirrors (ledger.write new) where
  ids := by rw [hg.nodes]; exact h.ids
  node? id := (node?_congr hg.nodes id).trans (h.node? id)
  edges := by rw [hg.edges, Ledger.write]; exact congrArg (· ++ new) h.edges
  created := by rw [hg.created, Ledger.write]; exact congrArg (· ++ new) h.created
  created_nodup := by
    refine List.nodup_append.mpr ⟨h.created_nodup, hn, ?_⟩
    rintro edge hc _ hm rfl
    exact hnew edge hm (h.created_sublist.mem hc)
  created_sublist := h.created_sublist.append (.refl new)

theorem additions (h : store.Mirrors ledger) (edges : List Edge) :
    store.service.additions edges = (firsts edges).filter (· ∉ ledger.edges) := by
  simp only [Service.additions, ← h.mem_edges]
  rfl

theorem write_additions (h : store.Mirrors ledger) {g : Service} {edges : List Edge}
    (hg : store.service.Grown g (store.service.additions edges)) :
    g.store.Mirrors (ledger.write ((firsts edges).filter (· ∉ ledger.edges))) := by
  rw [← h.additions]
  refine h.write hg (Service.nodup_additions edges) fun edge hm => ?_
  rw [← h.mem_edges]
  exact (Service.mem_additions.mp hm).2

/-- One change to both gives one answer, and the graph stays like the lists. -/
theorem change (h : store.Mirrors ledger) (change : Change) :
    (store.change change).1 = (ledger.change change).1 ∧
      (store.change change).2.Mirrors (ledger.change change).2 := by
  cases change with
  | insertNode node => exact ⟨rfl, h.insertNode node⟩
  | insertEdge edge => exact ⟨rfl, h.insertEdge edge⟩
  | createEdge edge =>
    rw [Store.change, Ledger.change]
    cases hf : ledger.missingEnd? edge with
    | some id =>
      rw [Service.createEdge_refused (by rw [h.refusal?, hf]; rfl)]
      exact ⟨rfl, h⟩
    | none =>
      obtain ⟨g, hw, hg⟩ := Service.createEdge_grown (by rw [h.refusal?, hf]; rfl)
      have hsingle := h.write_additions hg
      rw [hw]
      refine ⟨rfl, ?_⟩
      by_cases he : edge ∈ ledger.edges
      · simpa [he, firsts, Ledger.write] using hsingle
      · simpa [he, firsts] using hsingle
  | commit edges =>
    rw [Store.change, Ledger.change]
    rcases Transaction.commit_cases store.service edges with
      ⟨hall, g, hrun, hg⟩ | ⟨before, bad, after, fault, g, rfl, hb, hbad, hrun, hg⟩
    · have hsound : ∀ edge ∈ edges, ledger.missingEnd? edge = none := by
        simpa [h.refusal?] using hall
      have htake : edges.takeWhile (ledger.missingEnd? · == none) = edges :=
        List.takeWhile_eq_self_iff.mpr fun edge hm => by simp [hsound edge hm]
      rw [hrun, htake, List.findSome?_eq_none_iff.mpr hsound]
      exact ⟨rfl, h.write_additions hg⟩
    · have hsound : ∀ edge ∈ before, ledger.missingEnd? edge = none := by
        simpa [h.refusal?] using hb
      rw [h.refusal?, Option.map_eq_some_iff] at hbad
      obtain ⟨id, hid, rfl⟩ := hbad
      have htake : (before ++ bad :: after).takeWhile (ledger.missingEnd? · == none) = before := by
        rw [List.takeWhile_append_of_pos fun edge hm => by simp [hsound edge hm]]
        simp [hid]
      have hfind : (before ++ bad :: after).findSome? ledger.missingEnd? = some id := by
        rw [List.findSome?_append, List.findSome?_eq_none_iff.mpr hsound, List.findSome?_cons, hid]
        rfl
      rw [hrun, htake, hfind]
      exact ⟨rfl, h.write_additions hg⟩

/-- Changes made to both give the same answers, and the graph stays like the lists. -/
theorem run (h : store.Mirrors ledger) (changes : List Change) :
    (Change.run Store.change store changes).1 = (Change.run Ledger.change ledger changes).1 ∧
      (Change.run Store.change store changes).2.Mirrors
        (Change.run Ledger.change ledger changes).2 := by
  induction changes generalizing store ledger with
  | nil => exact ⟨rfl, h⟩
  | cons change rest ih =>
    obtain ⟨hreply, hnext⟩ := h.change change
    obtain ⟨hreplies, hlast⟩ := ih hnext
    rw [Change.run, Change.run]
    exact ⟨by simp only [hreply, hreplies], hlast⟩

end Mirrors

/-! ## What the graph answers -/

/-- The graph answers every question as the lists do, and its indices point to what is there. -/
structure Refines (store : Store) (ledger : Ledger) : Prop where
  node? : ∀ id, store.node? id = ledger.node? id
  nodes : store.nodes.toList = ledger.nodes
  nodeCount : store.nodeCount = ledger.nodes.length
  edges : store.edges.toList = ledger.edges
  edgeCount : store.edgeCount = ledger.edges.length
  outgoing : ∀ id relation, store.outgoing id relation =
    ledger.edges.filter fun edge => relation.all (· == edge.relation) && edge.source == id
  incoming : ∀ id relation, store.incoming id relation =
    ledger.edges.filter fun edge => relation.all (· == edge.relation) && edge.target == id
  matching_sorted : ∀ pattern, (store.matching pattern).Pairwise (·.id < ·.id)
  mem_matching : ∀ pattern node,
    node ∈ store.matching pattern ↔ node ∈ ledger.nodes ∧ pattern.matches node = true
  created : store.created.toList = ledger.created
  created_nodup : ledger.created.Nodup
  created_sublist : ledger.created.Sublist ledger.edges
  slots_lt : ∀ (id : NodeId) i, store.slots[id]? = some i → i < store.nodes.size
  bySource_lt : ∀ id, ∀ i ∈ store.bySource.getD id #[], i < store.edges.size
  byTarget_lt : ∀ id, ∀ i ∈ store.byTarget.getD id #[], i < store.edges.size
  written_lt : ∀ i ∈ store.written, i < store.edges.size

/-- The nodes of a graph are those that it has for their ids. -/
theorem nodes_eq_filterMap (store : Store) :
    store.nodes.toList = (store.nodes.toList.map Node.id).filterMap store.node? := by
  rw [List.filterMap_map]
  have hself : store.nodes.toList.filterMap (store.node? ∘ Node.id) =
      store.nodes.toList.filterMap some :=
    List.filterMap_congr fun node hm => holds_iff_mem.mpr (Array.mem_toList_iff.mp hm)
  rw [hself, List.filterMap_some]

/-- Nodes with distinct ids match in strict order. -/
theorem matching_sorted (hn : (store.nodes.toList.map Node.id).Nodup) (pattern : NodePattern) :
    (store.matching pattern).Pairwise (·.id < ·.id) := by
  have hle : (store.matching pattern).Pairwise fun a b => decide (a.id ≤ b.id) = true :=
    pairwise_sortBy (fun a b => by simpa using Nat.le_total a.id b.id)
      (fun a b c => by simpa using Nat.le_trans) _
  have hne : (store.matching pattern).Pairwise (·.id ≠ ·.id) := by
    rw [matching, (sortBy_perm _ _).pairwise_iff fun h => Ne.symm h]
    exact (List.pairwise_map.mp hn).filter _
  refine (hle.and hne).imp fun h => ?_
  exact Nat.lt_of_le_of_ne (by simpa using h.1) h.2

theorem Mirrors.refines (h : store.Mirrors ledger) : store.Refines ledger := by
  have hnodes : store.nodes.toList = ledger.nodes := by
    rw [nodes_eq_filterMap, h.ids, Ledger.nodes, funext h.node?]
  exact {
    node? := h.node?
    nodes := hnodes
    nodeCount := by rw [← hnodes]; rfl
    edges := h.edges
    edgeCount := by rw [← h.edges]; rfl
    outgoing := fun id relation => by rw [outgoing_eq, h.edges]
    incoming := fun id relation => by rw [incoming_eq, h.edges]
    matching_sorted := matching_sorted (h.ids ▸ nodup_firsts)
    mem_matching := fun pattern node => by rw [matching, mem_sortBy, List.mem_filter, hnodes]
    created := h.created
    created_nodup := h.created_nodup
    created_sublist := h.created_sublist
    slots_lt := fun _ _ => store.slot_lt
    bySource_lt := fun id i hi =>
      lt_of_mem_places (store.bySource_eq id ▸ Array.mem_toList_iff.mpr hi)
    byTarget_lt := fun id i hi =>
      lt_of_mem_places (store.byTarget_eq id ▸ Array.mem_toList_iff.mpr hi)
    written_lt := store.written_lt }

/-- The graph behaves as two lists: whatever is done to an empty one, the changes answer as they do
on the lists, and afterwards every question does. -/
theorem run_refines (changes : List Change) :
    (Change.run Store.change ∅ changes).1 = (Change.run Ledger.change {} changes).1 ∧
      (Change.run Store.change ∅ changes).2.Refines (Change.run Ledger.change {} changes).2 := by
  obtain ⟨hreplies, hlast⟩ := Mirrors.empty.run changes
  exact ⟨hreplies, hlast.refines⟩

end Store

end RequestFlow

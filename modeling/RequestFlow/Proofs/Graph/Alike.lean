/-
Services that answer alike: the same nodes, the same edges apart from stored
owners of `this`, and questions that fail alike (in the sense of a `Mode`).
Every question about the syntax tree then agrees; the nodes it answers with are
nodes of the store.

With one service on both sides and the mode `total` this says that a question
has an answer.
-/
import RequestFlow.Proofs.Agreement
import RequestFlow.Proofs.Graph.Store
import RequestFlow.Syntax.Statement

namespace RequestFlow

/-- A question that changes nothing. -/
def Query.IsRead : Query → Prop
  | createEdge _ => False
  | _ => True

variable {mode : Mode}

namespace Service

variable {g h : Service}

/-- `h` answers the questions that `g` answers, and answers the same. -/
structure Alike (mode : Mode) (g h : Service) : Prop where
  nodes : g.store.nodes = h.store.nodes
  edges : g.store.properEdges = h.store.properEdges
  asked : ∀ query : Query, query.IsRead → Agree mode (fun _ => True) (g.ask query ()) (h.ask query ())
  closed : mode = .total → ∀ edge, g.store.IsAst edge →
    g.store.hasNode edge.source = true ∧ g.store.hasNode edge.target = true

theorem Alike.refl (hm : mode ≠ .total) (g : Service) : Alike mode g g where
  nodes := rfl
  edges := rfl
  asked _ _ := .of_eq hm fun _ _ => trivial
  closed h := absurd h hm

theorem Alike.self (g : Service) : Alike .same g g := .refl (by decide) g

/-- Services behind one connection, that differ in stored owners of `this` only. -/
theorem Alike.of_outage (ho : h.outage = g.outage) (hn : h.store.nodes = g.store.nodes)
    (he : h.store.properEdges = g.store.properEdges) : Alike .same g h where
  nodes := hn.symm
  edges := he.symm
  asked query _ := by
    rw [ask, ask, ho]
    exact .of_eq (by decide) fun _ _ => trivial
  closed hm := nomatch hm

/-- A store all of whose edges have their ends answers every question. -/
theorem Alike.of_closed {store : Store} (hc : store.Closed) :
    Alike mode store.service store.service where
  nodes := rfl
  edges := rfl
  asked _ _ := .answer trivial
  closed _ edge he := hc edge he.1

theorem Alike.symm (a : Alike .same g h) : Alike .same h g where
  nodes := a.nodes.symm
  edges := a.edges.symm
  asked q hq := by rw [(a.asked q hq).eq]; exact .of_eq (by simp) fun _ _ => trivial
  closed hm := nomatch hm

/-- Services in the place of `g` and `h` that are the same to the analyses. -/
theorem Alike.trans {g' h' : Service} (ag : Alike .same g' g) (a : Alike mode g h)
    (ah : Alike .same h h') : Alike mode g' h' where
  nodes := ag.nodes.trans (a.nodes.trans ah.nodes)
  edges := ag.edges.trans (a.edges.trans ah.edges)
  asked q hq := by rw [(ag.asked q hq).eq, ← (ah.asked q hq).eq]; exact a.asked q hq
  closed hm edge he := by
    rw [Store.hasNode_congr ag.nodes, Store.hasNode_congr ag.nodes]
    rw [Store.isAst_iff_properEdges, ag.edges, ← Store.isAst_iff_properEdges] at he
    exact a.closed hm edge he

/-! ## Primitive questions -/

theorem Alike.holds (a : Alike mode g h) {node : Node} (hn : g.store.Holds node) :
    h.store.Holds node := by
  rwa [Store.Holds, ← Store.node?_congr a.nodes]

theorem ask_eq_map {α : Type} (query : Query) (answer : α) :
    g.ask query answer = (g.ask query ()).map fun _ => answer := by
  unfold ask
  cases g.outage query <;> rfl

theorem ask_agree (a : Alike mode g h) {α : Type} (query : Query) (hq : query.IsRead) (answer : α) :
    Agree mode (· = answer) (g.ask query answer) (h.ask query answer) := by
  rw [ask_eq_map, @ask_eq_map h]
  exact (a.asked query hq).map fun _ _ => rfl

theorem node?_agree (a : Alike mode g h) (id : NodeId) :
    Agree mode (· = g.store.node? id) (g.node? id) (h.node? id) := by
  unfold node?
  rw [← Store.node?_congr a.nodes]
  exact ask_agree a (.node id) trivial _

/-- The answer to a question for a node that exists, or may be missing on both sides. -/
theorem node_agree (a : Alike mode g h) {id : NodeId}
    (he : mode = .total → g.store.hasNode id = true) :
    Agree mode (fun node => g.store.node? id = some node) (g.node id) (h.node id) := by
  unfold node
  refine (node?_agree a id).bind fun r hr => ?_
  subst hr
  cases hn : g.store.node? id with
  | some node => exact .answer rfl
  | none =>
    refine .fault (fun hm => ?_) fun _ => rfl
    have := he hm
    simp [Store.hasNode, hn] at this

theorem node?_of_node {id : NodeId} {node : Node} (h : g.node id = .ok node) :
    g.store.node? id = some node :=
  ((node_agree (Alike.self g) nofun).of_ok h).2

theorem node_of_missing (ho : ∀ query, g.outage query = none) {id : NodeId}
    (hm : g.store.hasNode id = false) : g.node id = .error (.missingNode id) := by
  have hnone : g.store.node? id = none := by
    rw [← Option.not_isSome_iff_eq_none, Option.isSome_iff_exists, ← Store.hasNode_iff, hm]
    nofun
  rw [node, node?, ask, ho, hnone]
  rfl

theorem incoming_agree (a : Alike mode g h) (id : NodeId) {relation : Relation}
    (hr : relation ≠ .pointsTo) :
    Agree mode (· = g.store.incoming id (some relation)) (g.incoming id (some relation))
      (h.incoming id (some relation)) := by
  have he : g.store.incoming id (some relation) = h.store.incoming id (some relation) := by
    rw [Store.incoming_eq_properEdges hr, Store.incoming_eq_properEdges hr, a.edges]
  unfold incoming
  rw [← he]
  exact ask_agree a (.incoming id _) trivial _

theorem outgoing_agree (a : Alike mode g h) (id : NodeId) {relation : Relation}
    (hr : relation ≠ .pointsTo) :
    Agree mode (· = g.store.outgoing id (some relation)) (g.outgoing id (some relation))
      (h.outgoing id (some relation)) := by
  have he : g.store.outgoing id (some relation) = h.store.outgoing id (some relation) := by
    rw [Store.outgoing_eq_properEdges hr, Store.outgoing_eq_properEdges hr, a.edges]
  unfold outgoing
  rw [← he]
  exact ask_agree a (.outgoing id _) trivial _

theorem matching_agree (a : Alike mode g h) (pattern : NodePattern) :
    Agree mode (fun nodes => ∀ node ∈ nodes, g.store.Holds node ∧ pattern.matches node = true)
      (g.matching pattern) (h.matching pattern) := by
  unfold matching
  rw [← Store.matching_congr a.nodes]
  refine (ask_agree a (.matching pattern) trivial _).imp ?_
  rintro _ rfl node hn
  exact Store.mem_matching.mp hn

theorem ofType_agree (a : Alike mode g h) (type : NodeType) :
    Agree mode (fun nodes => ∀ node ∈ nodes, g.store.Holds node ∧ node.type = type)
      (g.ofType type) (h.ofType type) := by
  refine (matching_agree a _).imp fun nodes hn node hm => ⟨(hn node hm).1, ?_⟩
  exact (NodePattern.matches_iff.mp (hn node hm).2).1 type rfl

/-! ## One step up and down -/

/-- The edge comes down to `id` from the node. -/
structure IsParent (g : Service) (id : NodeId) (edge : Edge) (node : Node) : Prop where
  ast : g.store.IsAst edge
  target : edge.target = id
  node : g.store.node? edge.source = some node

theorem IsParent.holds {id : NodeId} {edge : Edge} {node : Node} (p : g.IsParent id edge node) :
    g.store.Holds node := Store.holds_of_node? p.node

/-- The edge goes down from `id` to the node. -/
structure IsChild (g : Service) (id : NodeId) (edge : Edge) (node : Node) : Prop where
  ast : g.store.IsAst edge
  source : edge.source = id
  node : g.store.node? edge.target = some node

theorem IsChild.holds {id : NodeId} {edge : Edge} {node : Node} (c : g.IsChild id edge node) :
    g.store.Holds node := Store.holds_of_node? c.node

theorem astParent?_agree (a : Alike mode g h) (id : NodeId) :
    Agree mode (fun r => ∀ p ∈ r, g.IsParent id p.1 p.2) (g.astParent? id) (h.astParent? id) := by
  unfold astParent?
  refine (incoming_agree a id (by simp)).bind fun edges he => ?_
  cases edges with
  | nil => exact .answer (by simp)
  | cons edge rest =>
    have hm : edge ∈ g.store.incoming id (some .ast) := he ▸ List.mem_cons_self
    obtain ⟨hm, hr, ht⟩ := Store.mem_incoming.mp hm
    refine (node_agree a fun hm' => (a.closed hm' edge ⟨hm, hr⟩).1).bind fun node hn => .answer ?_
    rintro _ ⟨⟩
    exact ⟨⟨hm, hr⟩, ht, hn⟩

/-- The first edge that comes down to `id`, and the node that it comes from. -/
def FirstParent (g : Service) (id : NodeId) (edge : Edge) (parent : Node) : Prop :=
  (g.store.incoming id (some .ast)).head? = some edge ∧ g.store.node? edge.source = some parent

theorem FirstParent.unique {id : NodeId} {edge edge' : Edge} {parent parent' : Node}
    (h : g.FirstParent id edge parent) (h' : g.FirstParent id edge' parent') : parent = parent' := by
  obtain rfl := Option.some_inj.mp (h.1.symm.trans h'.1)
  exact Option.some_inj.mp (h.2.symm.trans h'.2)

theorem astParent?_eq_some_iff {id : NodeId} {r : Option (Edge × Node)} (h : g.astParent? id = .ok r)
    {edge : Edge} {parent : Node} : r = some (edge, parent) ↔ g.FirstParent id edge parent := by
  obtain ⟨edges, hedges, h⟩ := exists_of_bind h
  obtain ⟨-, rfl⟩ := (incoming_agree (Alike.self g) id (by simp)).of_ok hedges
  rw [FirstParent]
  split at h
  · next hnil =>
    cases h
    simp [hnil]
  · next first rest hcons =>
    obtain ⟨node, hnode, h⟩ := exists_of_bind h
    cases h
    rw [hcons, List.head?_cons, Option.some_inj, Option.some_inj, Prod.mk.injEq]
    refine and_congr_right fun hfirst => ?_
    rw [← hfirst, node?_of_node hnode, Option.some_inj]

theorem astChildren_agree (a : Alike mode g h) (id : NodeId) :
    Agree mode (fun kids => ∀ kid ∈ kids, g.IsChild id kid.1 kid.2) (g.astChildren id)
      (h.astChildren id) := by
  unfold astChildren
  refine (outgoing_agree a id (by simp)).bind fun edges he => .mapM fun edge hm => ?_
  obtain ⟨hm, hr, hs⟩ := Store.mem_outgoing.mp (he ▸ hm)
  refine (node_agree a fun hm' => (a.closed hm' edge ⟨hm, hr⟩).2).bind fun node hn => .answer ?_
  exact ⟨⟨hm, hr⟩, hs, hn⟩

end Service

/-! ## Children in a role -/

namespace Children

variable {P : Node → Prop} {kids : Children Node}

theorem one?_of_forall (hk : ∀ kid ∈ kids, P kid.2) {relationType : String} {position : Option Nat} :
    ∀ node ∈ kids.one? relationType position, P node := by
  intro node hn
  unfold one? at hn
  split at hn
  · simp only [Option.mem_def, Option.map_eq_some_iff] at hn
    obtain ⟨kid, hf, rfl⟩ := hn
    exact hk kid (List.mem_of_find?_eq_some hf)
  · simp only [Option.mem_def, Option.bind_eq_some_iff] at hn
    obtain ⟨i, -, hi⟩ := hn
    have := List.mem_of_getElem? hi
    simp only [positional, List.mem_map, List.mem_reverse] at this
    obtain ⟨kid, hm, rfl⟩ := this
    exact hk kid hm

theorem positional_of_forall (hk : ∀ kid ∈ kids, P kid.2) : ∀ node ∈ kids.positional, P node := by
  intro node hn
  simp only [positional, List.mem_map, List.mem_reverse] at hn
  obtain ⟨kid, hm, rfl⟩ := hn
  exact hk kid hm

theorem many_of_forall (hk : ∀ kid ∈ kids, P kid.2) {relationType : String} {skip : Option Nat} :
    ∀ node ∈ kids.many relationType skip, P node := by
  intro node hn
  unfold many at hn
  split at hn
  · simp only [numbered, List.mem_map, mem_sortBy, List.mem_filter] at hn
    obtain ⟨_, ⟨⟨⟨⟨edge, kid⟩, i⟩, hi, rfl⟩, -⟩, rfl⟩ := hn
    exact hk (edge, kid) (List.fst_mem_of_mem_zipIdx hi)
  · split at hn
    · exact positional_of_forall hk node (List.mem_of_mem_drop hn)
    · cases hn

theorem all_of_forall (hk : ∀ kid ∈ kids, P kid.2) : ∀ node ∈ kids.all, P node := by
  intro node hn
  unfold all at hn
  split at hn
  · simp only [List.mem_map] at hn
    obtain ⟨kid, hm, rfl⟩ := hn
    exact hk kid hm
  · exact positional_of_forall hk node hn

end Children

namespace Service

variable {g h : Service}

theorem child?_agree (a : Alike mode g h) (id : NodeId) (relationType : String)
    (position : Option Nat) :
    Agree mode (fun r => ∀ node ∈ r, ∃ edge, g.IsChild id edge node)
      (g.child? id relationType position) (h.child? id relationType position) := by
  refine (astChildren_agree a id).bind fun kids hk => .answer ?_
  exact Children.one?_of_forall fun kid hm => ⟨kid.1, hk kid hm⟩

theorem childrenIn_agree (a : Alike mode g h) (id : NodeId) (relationType : String)
    (skip : Option Nat) :
    Agree mode (fun nodes => ∀ node ∈ nodes, ∃ edge, g.IsChild id edge node)
      (g.childrenIn id relationType skip) (h.childrenIn id relationType skip) := by
  refine (astChildren_agree a id).bind fun kids hk => .answer ?_
  exact Children.many_of_forall fun kid hm => ⟨kid.1, hk kid hm⟩

theorem memberProperty?_agree (a : Alike mode g h) (member : Node) :
    Agree mode (fun _ => True) (g.memberProperty? member) (h.memberProperty? member) := by
  unfold memberProperty?
  split
  · refine (child?_agree a member.id "property" (some 1)).bind fun r _ => ?_
    split
    · exact .answer trivial
    · split <;> exact .answer trivial
  · exact .answer trivial

end Service

/-! ## The way up -/

/-- Two ways up that agree, over nodes of the store. -/
inductive Lineage.Alike (mode : Mode) (g : Service) : Lineage → Lineage → Prop
  | root : Lineage.Alike mode g .root .root
  | broken {fault other} (ht : mode ≠ .total) (hs : mode = .same → other = .broken fault) :
    Lineage.Alike mode g (.broken fault) other
  | step {edge parent rest other} (hp : g.store.Holds parent)
    (hr : Lineage.Alike mode g rest other) :
    Lineage.Alike mode g (.step edge parent rest) (.step edge parent other)

namespace Lineage.Alike

variable {g : Service} {l l' : Lineage}

theorem find?_agree (a : Lineage.Alike mode g l l') (p : Node → Bool) :
    Agree mode (fun r => ∀ node ∈ r, g.store.Holds node ∧ p node = true) (l.find? p)
      (l'.find? p) := by
  induction a with
  | root => exact .answer (by simp)
  | broken ht hs =>
    refine .fault ht fun hm => ?_
    rw [hs hm]; rfl
  | @step edge parent rest other hp _ ih =>
    rw [Lineage.find?, Lineage.find?]
    split
    · next hq =>
      refine .answer ?_
      rintro _ ⟨⟩
      exact ⟨hp, hq⟩
    · exact ih

theorem top_agree (a : Lineage.Alike mode g l l') (id : NodeId) :
    Agree mode (fun top => top = id ∨ g.store.hasNode top = true) (l.top id) (l'.top id) := by
  induction a generalizing id with
  | root => exact .answer (.inl rfl)
  | broken ht hs =>
    refine .fault ht fun hm => ?_
    rw [hs hm]; rfl
  | @step edge parent rest other hp _ ih =>
    refine (ih parent.id).imp ?_
    rintro top (rfl | ht)
    · exact .inr hp.hasNode
    · exact .inr ht

theorem statement_agree (a : Lineage.Alike mode g l l') {node : Node} (hn : g.store.Holds node) :
    Agree mode g.store.Holds (l.statement node) (l'.statement node) := by
  induction a generalizing node with
  | root => exact .answer hn
  | broken ht hs =>
    refine .fault ht fun hm => ?_
    rw [hs hm]; rfl
  | step hp _ ih =>
    rw [Lineage.statement, Lineage.statement]
    split
    · exact .answer hn
    · exact ih hp

end Lineage.Alike

namespace Service

variable {g h : Service}

theorem lineageUpTo_alike (a : Alike mode g h) (fuel : Nat) (id : NodeId) :
    Lineage.Alike mode g (g.lineageUpTo fuel id) (h.lineageUpTo fuel id) := by
  induction fuel generalizing id with
  | zero => exact .root
  | succ fuel ih =>
    rw [lineageUpTo, lineageUpTo]
    have hp := astParent?_agree a id
    generalize g.astParent? id = x at hp
    generalize h.astParent? id = y at hp
    cases hp with
    | fault ht hs =>
      refine .broken ht fun hm => ?_
      rw [hs hm]
    | @answer r hr =>
      cases r with
      | none => exact .root
      | some p => exact .step (hr p rfl).holds (ih p.2.id)

theorem lineage_alike (a : Alike mode g h) (id : NodeId) :
    Lineage.Alike mode g (g.lineage id) (h.lineage id) := by
  unfold lineage Store.nodeCount
  rw [← a.nodes]
  exact lineageUpTo_alike a _ id

theorem isBelow_agree (a : Alike mode g h) (id ancestor : NodeId) :
    Agree mode (fun _ => True) (g.isBelow id ancestor) (h.isBelow id ancestor) :=
  ((lineage_alike a id).find?_agree _).bind fun _ _ => .answer trivial

theorem enclosingFunction?_agree (a : Alike mode g h) (id : NodeId) :
    Agree mode (fun r => ∀ node ∈ r, g.store.Holds node ∧ node.type.isFunction = true)
      (g.enclosingFunction? id) (h.enclosingFunction? id) :=
  (lineage_alike a id).find?_agree _

/-- The statement around a node that exists. -/
theorem statement_agree (a : Alike mode g h) {id : NodeId}
    (he : mode = .total → g.store.hasNode id = true) :
    Agree mode g.store.Holds (g.statement id) (h.statement id) :=
  (node_agree a he).bind fun _ hn =>
    (lineage_alike a id).statement_agree (Store.holds_of_node? hn)

end Service

end RequestFlow

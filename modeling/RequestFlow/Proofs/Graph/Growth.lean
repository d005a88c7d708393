/-
How a graph grows while it is built. A form is built in stages. A stage makes
nodes one after the other, and hangs below them nodes that it was given and
nodes that it makes: so an edge it adds leads from a new node to an older one,
or to one that is made later in the stage. Ids may fall along an edge as well as
rise, but no stage closes a cycle.

`Grows make given` tells all that a build hangs: each of the nodes that it makes
once, except the one that it returns, and besides them those that it was given.
-/
import Mathlib.Data.List.Perm.Basic
import RequestFlow.Proofs.Graph.Store
import RequestFlow.Proofs.Syntax.Built

namespace RequestFlow

namespace Store

variable {store grown : Store}

/-- The ids that edges of the syntax tree lead to, one for each edge. -/
def hung (store : Store) : List NodeId :=
  (store.edges.toList.filter (·.relation == .ast)).map (·.target)

theorem hung_append {es : List Edge} (h : grown.edges.toList = store.edges.toList ++ es) :
    grown.hung = store.hung ++ (es.filter (·.relation == .ast)).map (·.target) := by
  rw [hung, hung, h, List.filter_append, List.map_append]

theorem hung_insertEdge (store : Store) {e : Edge} (hr : e.relation ≠ .ast) :
    (store.insertEdge e).hung = store.hung := by
  have hedges : (store.insertEdge e).edges.toList = store.edges.toList ++ [e] := Array.toList_push
  have hnone : [e].filter (·.relation == .ast) = [] := by simp [hr]
  rw [hung_append hedges, hnone, List.map_nil, List.append_nil]

theorem Closed.hasNode_of_hung (hc : store.Closed) {id : NodeId} (h : id ∈ store.hung) :
    store.hasNode id = true := by
  obtain ⟨e, he, rfl⟩ := List.mem_map.mp h
  exact (hc e (Array.mem_toList_iff.mp (List.mem_filter.mp he).1)).2

/-- New edges that lead down from new nodes, to older nodes or in the order of ids, close no
cycle. -/
theorem AstAcyclic.grow (ha : store.AstAcyclic) (start : NodeId)
    (hold : ∀ e, store.IsAst e → e.source < start ∧ e.target < start)
    (hnew : ∀ e, grown.IsAst e → store.IsAst e ∨
      start ≤ e.source ∧ (e.target < start ∨ e.source < e.target)) : grown.AstAcyclic := by
  have hstep : ∀ {a b}, grown.AstStep a b → a < start ∧ b < start ∧ store.AstStep a b ∨
      start ≤ a ∧ (b < start ∨ a < b) := by
    rintro _ _ ⟨e, he, rfl, rfl⟩
    rcases hnew e he with he | he
    · exact .inl ⟨(hold e he).1, (hold e he).2, e, he, rfl, rfl⟩
    · exact .inr he
  -- A walk from an old node stays among the old ones; one from a new node goes on to larger ids
  -- until it comes down to an old one.
  have hwalk : ∀ {a b}, Relation.TransGen grown.AstStep a b →
      a < start ∧ b < start ∧ Relation.TransGen store.AstStep a b ∨
        start ≤ a ∧ (b < start ∨ a < b) := by
    intro a b hab
    induction hab with
    | single hs =>
      rcases hstep hs with ⟨ha, hb, hs⟩ | hs
      · exact .inl ⟨ha, hb, .single hs⟩
      · exact .inr hs
    | tail _ hs ih =>
      rcases ih with ⟨ha, hb, hab⟩ | ⟨ha, hb⟩ <;> rcases hstep hs with ⟨hb', hc, hs⟩ | ⟨hb', hc⟩
      · exact .inl ⟨ha, hc, hab.tail hs⟩
      · lia
      · exact .inr ⟨ha, .inl hc⟩
      · exact .inr ⟨ha, by lia⟩
  intro id hid
  rcases hwalk hid with ⟨-, -, hid⟩ | ⟨hle, hlt⟩
  · exact ha id hid
  · lia

end Store

namespace Builder

variable {b b' b'' : Builder} {es es' : List Edge} {start : NodeId}

/-- The nodes have the ids given so far, 1, 2, 3, …, in order. -/
structure Numbered (b : Builder) : Prop where
  positive : 0 < b.nextId
  ids : b.store.nodes.toList.map (·.id) = List.range' 1 (b.nextId - 1)

theorem Numbered.hasNode_iff (h : b.Numbered) {id : NodeId} :
    b.store.hasNode id = true ↔ 0 < id ∧ id < b.nextId := by
  have hmem : id ∈ b.store.nodes.toList.map (·.id) ↔ b.store.hasNode id = true := by
    simp [Store.hasNode_iff, Store.node?_eq_some]
  have hpos := h.positive
  rw [← hmem, h.ids, List.mem_range'_1]
  lia

theorem Numbered.insertNode (h : b.Numbered) {node : Node} (hid : node.id = b.nextId) :
    Numbered { b with nextId := b.nextId + 1, store := b.store.insertNode node } := by
  have hpos := h.positive
  have hnew : node.id ∉ b.store.nodes.toList.map (·.id) := by
    rw [h.ids, List.mem_range'_1, hid]
    lia
  refine ⟨Nat.succ_pos _, ?_⟩
  change (b.store.insertNode node).nodes.toList.map (·.id) = List.range' 1 (b.nextId + 1 - 1)
  rw [Store.ids_insertNode, if_neg hnew, h.ids, hid,
    show b.nextId + 1 - 1 = b.nextId - 1 + 1 by lia, List.range'_1_concat]
  congr 2
  lia

/-- The ids given from `b` to `b'`. -/
def since (b b' : Builder) : List NodeId := List.range' b.nextId (b'.nextId - b.nextId)

theorem mem_since {id : NodeId} : id ∈ since b b' ↔ b.nextId ≤ id ∧ id < b'.nextId := by
  rw [since, List.mem_range'_1]
  lia

theorem since_self (b : Builder) : since b b = [] := by rw [since, Nat.sub_self, List.range'_zero]

theorem since_append (h : b.nextId ≤ b'.nextId) (h' : b'.nextId ≤ b''.nextId) :
    since b b' ++ since b' b'' = since b b'' := by
  have hsplit : List.range' b'.nextId (b''.nextId - b'.nextId) =
      List.range' (b.nextId + (b'.nextId - b.nextId)) (b''.nextId - b'.nextId) := by
    rw [Nat.add_sub_cancel' h]
  rw [since, since, hsplit, List.range'_append_1, since]
  congr 1
  lia

/-- What a stage does to a graph: it adds nodes, and it hangs nodes below those made from
`start` on. What it hangs is older than `start`, or younger than its parent. -/
structure Stage (start : NodeId) (es : List Edge) (b b' : Builder) : Prop where
  next_le : b.nextId ≤ b'.nextId
  numbered : b.Numbered → b'.Numbered
  edges : b'.store.edges.toList = b.store.edges.toList ++ es
  ast : ∀ e ∈ es, e.relation = .ast
  down : ∀ e ∈ es, start ≤ e.source ∧ e.source < b'.nextId ∧
    (e.target < start ∨ e.source < e.target)

namespace Stage

theorem refl (start : NodeId) (b : Builder) : Stage start [] b b where
  next_le := Nat.le_refl _
  numbered h := h
  edges := (List.append_nil _).symm
  ast := nofun
  down := nofun

theorem trans (h : Stage start es b b') (h' : Stage start es' b' b'') :
    Stage start (es ++ es') b b'' where
  next_le := Nat.le_trans h.next_le h'.next_le
  numbered hb := h'.numbered (h.numbered hb)
  edges := by rw [h'.edges, h.edges, List.append_assoc]
  ast := List.forall_mem_append.mpr ⟨h.ast, h'.ast⟩
  down := by
    refine List.forall_mem_append.mpr ⟨fun e he => ?_, h'.down⟩
    obtain ⟨hle, hlt, ht⟩ := h.down e he
    exact ⟨hle, Nat.lt_of_lt_of_le hlt h'.next_le, ht⟩

theorem insertNode (start : NodeId) (b : Builder) {node : Node} (hid : node.id = b.nextId) :
    Stage start [] b { b with nextId := b.nextId + 1, store := b.store.insertNode node } where
  next_le := Nat.le_succ _
  numbered h := h.insertNode hid
  edges := by rw [Store.edges_insertNode, List.append_nil]
  ast := nofun
  down := nofun

theorem insertEdge (b : Builder) {e : Edge} (ha : e.relation = .ast)
    (hd : start ≤ e.source ∧ e.source < b.nextId ∧ (e.target < start ∨ e.source < e.target)) :
    Stage start [e] b { b with store := b.store.insertEdge e } where
  next_le := Nat.le_refl _
  numbered h := ⟨h.positive, h.ids⟩
  edges := Array.toList_push
  ast := List.forall_mem_singleton.mpr ha
  down := List.forall_mem_singleton.mpr hd

theorem hung_eq (h : Stage start es b b') :
    b'.store.hung = b.store.hung ++ es.map (·.target) := by
  have hall : es.filter (·.relation == .ast) = es := by
    rw [List.filter_eq_self]
    intro e he
    simp [h.ast e he]
  rw [Store.hung_append h.edges, hall]

end Stage

/-- The graph so far: numbered in order, with both ends of every edge and no cycle. -/
structure Sound (b : Builder) : Prop extends Numbered b where
  closed : b.store.Closed
  acyclic : b.store.AstAcyclic

theorem Sound.hasNode_mono (h : b.Sound) (h' : b'.Sound) (hle : b.nextId ≤ b'.nextId) {id : NodeId}
    (hid : b.store.hasNode id = true) : b'.store.hasNode id = true := by
  obtain ⟨hpos, hlt⟩ := h.hasNode_iff.mp hid
  exact h'.hasNode_iff.mpr ⟨hpos, Nat.lt_of_lt_of_le hlt hle⟩

theorem Sound.hasNode_of_since (h : b.Sound) (h' : b'.Sound) {id : NodeId}
    (hid : id ∈ since b b') : b'.store.hasNode id = true := by
  obtain ⟨hle, hlt⟩ := mem_since.mp hid
  exact h'.hasNode_iff.mpr ⟨Nat.lt_of_lt_of_le h.positive hle, hlt⟩

theorem Sound.ends_lt (h : b.Sound) {e : Edge} (he : e ∈ b.store.edges) :
    (0 < e.source ∧ e.source < b.nextId) ∧ 0 < e.target ∧ e.target < b.nextId :=
  ⟨h.hasNode_iff.mp (h.closed e he).1, h.hasNode_iff.mp (h.closed e he).2⟩

/-- A stage that hangs what exists keeps the graph sound. -/
theorem Stage.sound (h : Stage b.nextId es b b') (hb : b.Sound)
    (ht : ∀ e ∈ es, 0 < e.target ∧ e.target < b'.nextId) : b'.Sound := by
  have hpos := hb.positive
  have hnum := h.numbered hb.toNumbered
  have hmem : ∀ e, e ∈ b'.store.edges ↔ e ∈ b.store.edges ∨ e ∈ es := by
    intro e
    rw [← Array.mem_toList_iff, h.edges, List.mem_append, Array.mem_toList_iff]
  refine ⟨hnum, fun e he => ?_, ?_⟩
  · rw [hnum.hasNode_iff, hnum.hasNode_iff]
    rcases (hmem e).mp he with he | he
    · obtain ⟨hs, ht⟩ := hb.ends_lt he
      have hle := h.next_le
      lia
    · obtain ⟨hle, hlt, -⟩ := h.down e he
      exact ⟨⟨Nat.lt_of_lt_of_le hpos hle, hlt⟩, ht e he⟩
  · refine hb.acyclic.grow b.nextId (fun e he => ?_) fun e he => ?_
    · exact ⟨(hb.ends_lt he.1).1.2, (hb.ends_lt he.1).2.2⟩
    · rcases (hmem e).mp he.1 with hm | hm
      · exact .inl ⟨hm, he.2⟩
      · exact .inr ⟨(h.down e hm).1, (h.down e hm).2.2⟩

/-- An edge beside the tree, between nodes that exist, keeps the graph sound. -/
theorem Sound.insertEdge (h : b.Sound) {e : Edge} (hr : e.relation ≠ .ast)
    (hs : b.store.hasNode e.source = true) (ht : b.store.hasNode e.target = true) :
    Sound { b with store := b.store.insertEdge e } := by
  refine ⟨⟨h.positive, h.ids⟩, fun e' he => ?_, ?_⟩
  · rcases Array.mem_push.mp he with he | rfl
    · exact h.closed e' he
    · exact ⟨hs, ht⟩
  · refine h.acyclic.grow b.nextId (fun e' he => ?_) fun e' he => .inl ⟨?_, he.2⟩
    · exact ⟨(h.ends_lt he.1).1.2, (h.ends_lt he.1).2.2⟩
    · rcases Array.mem_push.mp he.1 with hm | rfl
      · exact hm
      · exact absurd he.2 hr

end Builder

/-! ## What a build hangs -/

namespace Build

open Builder

/-- Within a stage, `m` hangs what it was given and all that it makes, each once. -/
def HangsAll (m : NodeId → Build Unit) (given : List NodeId) : Prop :=
  ∀ start parent b, start ≤ parent → parent < b.nextId → (∀ id ∈ given, id < start) →
    ∃ es, Stage start es b ((m parent).run b).2 ∧
      (es.map (·.target)).Perm (given ++ since b ((m parent).run b).2)

/-- Within a stage, `make` hangs what it was given and all that it makes, except for its
result: that is left for others to hang. -/
def Offers (make : Build NodeId) (given : List NodeId) : Prop :=
  ∀ start b, start ≤ b.nextId → (∀ id ∈ given, id < start) →
    ∃ es, Stage start es b (make.run b).2 ∧
      ((make.run b).1 :: es.map (·.target)).Perm (given ++ since b (make.run b).2)

/-- A stage of its own: the result is its first node. -/
structure Plants (make : Build NodeId) (given : List NodeId) : Prop where
  offers : Offers make given
  result : ∀ b, (make.run b).1 = b.nextId

/-- From nodes that exist, `make` builds a sound graph. It hangs those it was given, and
all that it makes but its result. -/
def Grows (make : Build NodeId) (given : List NodeId) : Prop :=
  ∀ b : Builder, b.Sound → (∀ id ∈ given, b.store.hasNode id = true) →
    (make.run b).2.Sound ∧ b.nextId ≤ (make.run b).2.nextId ∧
      ∃ inner, (make.run b).2.store.hung.Perm (b.store.hung ++ given ++ inner) ∧
        ((make.run b).1 :: inner).Perm (since b (make.run b).2)

variable {m m' : NodeId → Build Unit} {make : Build NodeId} {given given' : List NodeId}

/-- A node that was made before. -/
theorem Offers.pure (id : NodeId) : Offers (pure id) [id] := by
  intro start b _ _
  refine ⟨[], .refl start b, ?_⟩
  change [id].Perm ([id] ++ since b b)
  rw [since_self]
  exact .refl _

namespace HangsAll

theorem nothing : HangsAll (fun _ => pure ()) [] := by
  intro start _ b _ _ _
  refine ⟨[], .refl start b, ?_⟩
  change [].Perm ([] ++ since b b)
  rw [since_self]
  exact .refl _

theorem seq (h : HangsAll m given) (h' : HangsAll m' given') :
    HangsAll (fun parent => do m parent; m' parent) (given ++ given') := by
  intro start parent b hle hlt hg
  obtain ⟨hgiven, hgiven'⟩ := List.forall_mem_append.mp hg
  obtain ⟨es, hstage, hes⟩ := h start parent b hle hlt hgiven
  obtain ⟨es', hstage', hes'⟩ :=
    h' start parent _ hle (Nat.lt_of_lt_of_le hlt hstage.next_le) hgiven'
  refine ⟨es ++ es', hstage.trans hstage', ?_⟩
  change List.Perm _ (given ++ given' ++ since b ((m' parent).run ((m parent).run b).2).2)
  rw [List.map_append, ← since_append hstage.next_le hstage'.next_le]
  refine (hes.append hes').trans ?_
  rw [List.append_assoc, List.append_assoc, ← List.append_assoc (since b _),
    ← List.append_assoc given']
  exact (List.perm_append_comm.append_right _).append_left _

/-- Something that is offered is hung. -/
theorem attach (h : Offers make given) (role arguments : String) :
    HangsAll (fun parent => do
      edge { source := parent, target := ← make, relation := .ast, relationType := role,
             arguments }) given := by
  intro start parent b hle hlt hg
  obtain ⟨es, hstage, hes⟩ := h start b (Nat.le_trans hle (Nat.le_of_lt hlt)) hg
  have hnext := hstage.next_le
  let e : Edge := { source := parent, target := (make.run b).1, relation := .ast,
                    relationType := role, arguments }
  have htarget : e.target < start ∨ parent < e.target := by
    rcases List.mem_append.mp (hes.subset List.mem_cons_self) with hm | hm
    · exact .inl (hg _ hm)
    · exact .inr (Nat.lt_of_lt_of_le hlt (mem_since.mp hm).1)
  have hedge : Stage start [e] _ _ :=
    .insertEdge (make.run b).2 rfl ⟨hle, Nat.lt_of_lt_of_le hlt hnext, htarget⟩
  refine ⟨es ++ [e], hstage.trans hedge, ?_⟩
  rw [List.map_append]
  exact (List.perm_append_singleton _ _).trans hes

theorem child (id : NodeId) (role : String) :
    HangsAll (fun parent => Build.child parent id role) [id] := attach (.pure id) role ""

section Items

variable {γ : Type} {make : γ → Build NodeId} {given : γ → List NodeId}
  (hm : ∀ item, Offers (make item) (given item))

include hm

theorem optional (item : Option γ) (role : String) :
    HangsAll (fun parent => match item with
        | some x => do Build.child parent (← make x) role
        | none => pure ())
      (item.elim [] given) := by
  cases item with
  | none => exact nothing
  | some x => exact attach (hm x) role ""

theorem each (items : List γ) (role : String) (arguments : Nat → String) (index : Nat) :
    HangsAll (fun parent => hangEach make role arguments parent index items)
      (items.flatMap given) := by
  induction items generalizing index with
  | nil => exact nothing
  | cons x rest ih => exact (attach (hm x) role (arguments index)).seq (ih (index + 1))

end Items

theorem childIf (id : Option NodeId) (role : String) :
    HangsAll (fun parent => Build.childIf parent id role) id.toList := by
  cases id with
  | none => exact nothing
  | some id => exact child id role

theorem children (ids : List NodeId) (role : String) :
    HangsAll (fun parent => Build.children parent role ids) ids := by
  have heach := each Offers.pure ids role (fun _ => "") 0
  simpa only [children_eq _ _ 0, List.flatMap_singleton'] using heach

theorem indexedChildren (ids : List NodeId) (role : String) :
    HangsAll (fun parent => Build.indexedChildren parent role 0 ids) ids := by
  have heach := each Offers.pure ids role indexArguments 0
  simpa only [indexedChildren_eq, List.flatMap_singleton'] using heach

/-- A new node with what is hung below it. -/
theorem plants {type : NodeType} {describe : Node → Node} (h : HangsAll m given)
    (hi : ∀ n, (describe n).id = n.id) :
    Plants (do let parent ← node type describe; m parent; return parent) given := by
  refine ⟨fun start b hle hg => ?_, fun b => rfl⟩
  let fresh := describe { id := b.nextId, type, location := "line:" ++ toString b.line }
  let b₁ : Builder := { b with nextId := b.nextId + 1, store := b.store.insertNode fresh }
  have hnode : Stage start [] b b₁ := .insertNode start b (hi _)
  obtain ⟨es, hstage, hes⟩ := h start b.nextId b₁ hle (Nat.lt_succ_self _) hg
  refine ⟨es, hnode.trans hstage, ?_⟩
  change (b.nextId :: es.map (·.target)).Perm (given ++ since b ((m b.nextId).run b₁).2)
  have hfirst : since b b₁ = [b.nextId] := by simp [since, b₁]
  rw [← since_append hnode.next_le hstage.next_le, hfirst]
  exact (hes.cons _).trans List.perm_middle.symm

end HangsAll

/-- What is planted among nodes that exist keeps the graph sound. -/
theorem Plants.grows (h : Plants make given) : Grows make given := by
  intro b hb hg
  have hlt : ∀ id ∈ given, 0 < id ∧ id < b.nextId := fun id hid => hb.hasNode_iff.mp (hg id hid)
  obtain ⟨es, hstage, hes⟩ := h.offers b.nextId b (Nat.le_refl _) fun id hid => (hlt id hid).2
  rw [h.result b] at hes ⊢
  have hpos := hb.positive
  have htarget : ∀ e ∈ es, 0 < e.target ∧ e.target < (make.run b).2.nextId := by
    intro e he
    have hle := hstage.next_le
    rcases List.mem_append.mp (hes.subset (.tail _ (List.mem_map_of_mem he))) with hm | hm
    · have := hlt _ hm
      lia
    · have := mem_since.mp hm
      lia
  have hfirst : b.nextId ∈ since b (make.run b).2 := by
    rcases List.mem_append.mp (hes.subset List.mem_cons_self) with hm | hm
    · exact absurd (hlt _ hm).2 (Nat.lt_irrefl _)
    · exact hm
  -- What is hung besides the given nodes are the new ones without the result.
  have hinner := List.perm_cons_erase hfirst
  refine ⟨hstage.sound hb htarget, hstage.next_le, _, ?_, hinner.symm⟩
  rw [hstage.hung_eq, List.append_assoc]
  exact ((hes.trans (hinner.append_left given)).trans List.perm_middle).cons_inv.append_left _

section New

variable {type : NodeType} {describe : Node → Node}

theorem HangsAll.grows (h : HangsAll m given) (hi : ∀ n, (describe n).id = n.id) :
    Grows (do let parent ← node type describe; m parent; return parent) given :=
  (h.plants hi).grows

theorem HangsAll.offers (h : HangsAll m given) (hi : ∀ n, (describe n).id = n.id) :
    Offers (do let parent ← node type describe; m parent; return parent) given :=
  (h.plants hi).offers

/-- A node with nothing below it. -/
theorem plants_node (hi : ∀ n, (describe n).id = n.id) : Plants (node type describe) [] :=
  have hleaf : Plants (do let leaf ← node type describe; pure (); return leaf) [] :=
    HangsAll.nothing.plants hi
  hleaf

end New

namespace Grows

/-- The order in which nodes are given does not matter. -/
theorem perm (h : Grows make given) (hp : given.Perm given') : Grows make given' := by
  intro b hb hg
  obtain ⟨hsound, hle, inner, hhung, hinner⟩ := h b hb fun id hid => hg id (hp.subset hid)
  exact ⟨hsound, hle, inner, hhung.trans ((hp.append_left _).append_right _), hinner⟩

/-- What one build returns is given to the next. -/
theorem bind {next : NodeId → Build NodeId} (h : Grows make given)
    (hnext : ∀ id, Grows (next id) (id :: given')) : Grows (make >>= next) (given ++ given') := by
  intro b hb hg
  obtain ⟨hgiven, hgiven'⟩ := List.forall_mem_append.mp hg
  obtain ⟨hsound, hle, inner, hhung, hinner⟩ := h b hb hgiven
  have hresult := hb.hasNode_of_since hsound (hinner.subset List.mem_cons_self)
  obtain ⟨hsound', hle', inner', hhung', hinner'⟩ := hnext (make.run b).1 (make.run b).2 hsound
    (List.forall_mem_cons.mpr
      ⟨hresult, fun id hid => hb.hasNode_mono hsound hle (hgiven' id hid)⟩)
  refine ⟨hsound', Nat.le_trans hle hle', (make.run b).1 :: inner ++ inner', ?_, ?_⟩
  · refine List.perm_iff_count.mpr fun id => (hhung'.count_eq id).trans ?_
    have hcount := hhung.count_eq id
    simp only [List.count_append, List.count_cons] at hcount ⊢
    omega
  · change List.Perm _ (since b ((next (make.run b).1).run (make.run b).2).2)
    rw [← since_append hle hle']
    exact List.perm_middle.symm.trans (hinner.append hinner')

end Grows

end Build

end RequestFlow

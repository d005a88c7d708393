/-
Acyclic syntax trees. A walk up or down meets distinct nodes, so it ends within
as many steps as there are nodes: the bound on the way up never cuts it short,
and the function around a node and the nodes above it are found by walking up.
Where each node has one parent, the nodes above are those that lead down to it.
-/
import Mathlib.Data.List.Perm.Subperm
import Mathlib.Order.WellFoundedSet
import RequestFlow.Proofs.Graph.Alike

namespace RequestFlow

/-- Distinct nodes of a store are no more than it has. -/
theorem Store.length_le_nodeCount {store : Store} {ids : List NodeId} (hn : ids.Nodup)
    (he : ∀ id ∈ ids, store.hasNode id = true) : ids.length ≤ store.nodeCount := by
  have hsub : ids ⊆ store.nodes.toList.map Node.id := by
    intro id hid
    obtain ⟨node, hnode⟩ := hasNode_iff.mp (he id hid)
    obtain ⟨hm, rfl⟩ := node?_eq_some.mp hnode
    exact List.mem_map_of_mem (Array.mem_toList_iff.mpr hm)
  simpa [nodeCount] using (List.subperm_of_subset hn hsub).length_le

namespace Store

variable {store : Store}

/-- Both ends of a way down are nodes. -/
theorem Closed.hasNode_of_transGen (hc : store.Closed) {a b : NodeId}
    (h : Relation.TransGen store.AstStep a b) :
    store.hasNode a = true ∧ store.hasNode b = true := by
  have hends : ∀ {a b}, store.AstStep a b → store.hasNode a = true ∧ store.hasNode b = true := by
    rintro _ _ ⟨edge, ⟨hm, -⟩, rfl, rfl⟩
    exact hc edge hm
  obtain ⟨_, hfirst, -⟩ := Relation.TransGen.head'_iff.mp h
  obtain ⟨_, -, hlast⟩ := Relation.TransGen.tail'_iff.mp h
  exact ⟨(hends hfirst).1, (hends hlast).2⟩

theorem finite_hasNode (store : Store) : {id | store.hasNode id = true}.Finite := by
  refine (store.nodes.toList.map Node.id).finite_toSet.subset fun id hid => ?_
  obtain ⟨node, hnode⟩ := hasNode_iff.mp hid
  obtain ⟨hm, rfl⟩ := node?_eq_some.mp hnode
  exact List.mem_map_of_mem (Array.mem_toList_iff.mpr hm)

/-- Going down an acyclic tree ends. -/
theorem AstAcyclic.wellFounded (ha : store.AstAcyclic) (hc : store.Closed) :
    WellFounded fun b a => Relation.TransGen store.AstStep a b := by
  have : IsStrictOrder NodeId fun b a => Relation.TransGen store.AstStep a b :=
    { irrefl := ha, trans := fun _ _ _ hba hcb => hcb.trans hba }
  have hon : Set.WellFoundedOn {id | store.hasNode id = true}
      fun b a => Relation.TransGen store.AstStep a b := store.finite_hasNode.wellFoundedOn
  refine Subrelation.wf ?_ (Set.wellFoundedOn_iff.mp hon)
  intro b a hab
  obtain ⟨hna, hnb⟩ := hc.hasNode_of_transGen hab
  exact ⟨hab, hnb, hna⟩

/-- A walk down an acyclic tree meets each node once. -/
theorem AstAcyclic.length_le (ha : store.AstAcyclic) (hc : store.Closed) {way : List NodeId}
    (h : way.IsChain store.AstStep) : way.length ≤ store.nodeCount + 1 := by
  cases way with
  | nil => exact Nat.zero_le _
  | cons id way =>
    obtain ⟨hfirst, hrest⟩ := List.pairwise_cons.mp
      (h.imp fun _ _ => Relation.TransGen.single).pairwise
    refine Nat.succ_le_succ (length_le_nodeCount ?_ fun node hm => ?_)
    · refine hrest.imp ?_
      rintro a b hab rfl
      exact ha a hab
    · exact (hc.hasNode_of_transGen (hfirst node hm)).2

end Store

namespace Service

variable {g : Service}

/-- The nearest function around a node, if there is one: the way up step by step. -/
inductive Within (g : Service) : NodeId → Option Node → Prop
  | root {id} (hp : g.astParent? id = .ok none) : Within g id none
  | found {id edge parent} (hp : g.astParent? id = .ok (some (edge, parent)))
    (hf : parent.type.isFunction = true) : Within g id (some parent)
  | up {id edge parent r} (hp : g.astParent? id = .ok (some (edge, parent)))
    (hf : parent.type.isFunction = false) (hr : Within g parent.id r) : Within g id r

/-- `ancestor` stands on the way up from a node. -/
inductive Below (g : Service) : NodeId → NodeId → Prop
  | parent {id edge parent} (hp : g.astParent? id = .ok (some (edge, parent))) :
    Below g id parent.id
  | up {id edge parent ancestor} (hp : g.astParent? id = .ok (some (edge, parent)))
    (hb : Below g parent.id ancestor) : Below g id ancestor

theorem Within.unique {id : NodeId} {r r' : Option Node} (hr : g.Within id r)
    (hr' : g.Within id r') : r = r' := by
  induction hr generalizing r' with
  | root hp =>
    cases hr' with
    | root => rfl
    | found hp' => rw [hp] at hp'; cases hp'
    | up hp' => rw [hp] at hp'; cases hp'
  | found hp hf =>
    cases hr' with
    | root hp' => rw [hp] at hp'; cases hp'
    | found hp' => rw [hp] at hp'; cases hp'; rfl
    | up hp' hf' => rw [hp] at hp'; cases hp'; rw [hf] at hf'; cases hf'
  | up hp hf _ ih =>
    cases hr' with
    | root hp' => rw [hp] at hp'; cases hp'
    | found hp' hf' => rw [hp] at hp'; cases hp'; rw [hf] at hf'; cases hf'
    | up hp' _ hr' => rw [hp] at hp'; cases hp'; exact ih hr'

/-- The parent that a service answers with is one in the store. -/
theorem isParent_of_astParent? {id : NodeId} {edge : Edge} {parent : Node}
    (hp : g.astParent? id = .ok (some (edge, parent))) : g.IsParent id edge parent := by
  exact ((astParent?_agree (Alike.self g) id).of_ok hp).2 (edge, parent) rfl

theorem Within.holds {id : NodeId} {function : Node} (hw : g.Within id (some function)) :
    g.store.Holds function := by
  generalize hr : some function = r at hw
  induction hw with
  | root => cases hr
  | found hp => cases hr; exact (isParent_of_astParent? hp).holds
  | up _ _ _ ih => exact ih hr

theorem IsParent.astStep {id : NodeId} {edge : Edge} {parent : Node}
    (p : g.IsParent id edge parent) : g.store.AstStep parent.id id :=
  ⟨edge, p.ast, (Store.id_of_node? p.node).symm, p.target⟩

theorem IsChild.astStep {id : NodeId} {edge : Edge} {node : Node} (c : g.IsChild id edge node) :
    g.store.AstStep id node.id :=
  ⟨edge, c.ast, c.source, (Store.id_of_node? c.node).symm⟩

theorem below_iff {id ancestor : NodeId} {edge : Edge} {parent : Node}
    (hp : g.astParent? id = .ok (some (edge, parent))) :
    g.Below id ancestor ↔ parent.id = ancestor ∨ g.Below parent.id ancestor := by
  constructor
  · intro h
    cases h with
    | parent hp' => rw [hp] at hp'; cases hp'; exact .inl rfl
    | up hp' hb => rw [hp] at hp'; cases hp'; exact .inr hb
  · rintro (rfl | hb)
    · exact .parent hp
    · exact .up hp hb

theorem Below.transGen {id ancestor : NodeId} (h : g.Below id ancestor) :
    Relation.TransGen g.store.AstStep ancestor id := by
  induction h with
  | parent hp => exact .single (isParent_of_astParent? hp).astStep
  | up hp _ ih => exact ih.tail (isParent_of_astParent? hp).astStep

/-- Distinct nodes that lie at or below `id`, such as the way up to it has met. -/
structure Climbed (g : Service) (id : NodeId) (way : List NodeId) : Prop where
  distinct : way.Nodup
  exist : ∀ node ∈ way, g.store.hasNode node = true
  below : ∀ node ∈ way, Relation.ReflTransGen g.store.AstStep id node

namespace Climbed

variable {id : NodeId} {way : List NodeId}

theorem start : g.Climbed id [] := ⟨List.nodup_nil, by simp, by simp⟩

theorem length_le (h : g.Climbed id way) : way.length ≤ g.store.nodeCount :=
  Store.length_le_nodeCount h.distinct h.exist

/-- In an acyclic tree the parent is none of the nodes met. -/
theorem up (ha : g.store.AstAcyclic) (h : g.Climbed id way) {edge : Edge} {parent : Node}
    (hp : g.IsParent id edge parent) : g.Climbed parent.id (parent.id :: way) where
  distinct := by
    refine List.nodup_cons.mpr ⟨fun hm => ?_, h.distinct⟩
    exact ha parent.id (.head' hp.astStep (h.below _ hm))
  exist := List.forall_mem_cons.mpr ⟨hp.holds.hasNode, h.exist⟩
  below := List.forall_mem_cons.mpr ⟨.refl, fun node hm => .head hp.astStep (h.below node hm)⟩

/-- A bound on the way up that exceeds the nodes left is not used up before the root. -/
theorem lineageUpTo_eq (ha : g.store.AstAcyclic) {fuel fuel' : Nat} (h : g.Climbed id way)
    (hl : g.store.nodeCount < fuel + way.length) (hl' : g.store.nodeCount < fuel' + way.length) :
    g.lineageUpTo fuel id = g.lineageUpTo fuel' id := by
  have hway := h.length_le
  induction fuel generalizing fuel' id way with
  | zero => omega
  | succ fuel ih =>
    obtain _ | fuel' := fuel'
    · omega
    · rw [lineageUpTo, lineageUpTo]
      split
      · rfl
      · rfl
      · next edge parent hp =>
        have hup := h.up ha (isParent_of_astParent? hp)
        refine congrArg (Lineage.step edge parent) (ih hup ?_ ?_ hup.length_le)
        · simp only [List.length_cons]; omega
        · simp only [List.length_cons]; omega

/-- Walking up with a bound finds what walking up finds. -/
theorem within_of_find? (ha : g.store.AstAcyclic) {fuel : Nat} {r : Option Node}
    (h : g.Climbed id way) (hl : g.store.nodeCount < fuel + way.length)
    (hf : (g.lineageUpTo fuel id).find? (·.type.isFunction) = .ok r) : g.Within id r := by
  induction fuel generalizing id way with
  | zero =>
    have := h.length_le
    omega
  | succ fuel ih =>
    rw [lineageUpTo] at hf
    split at hf
    · cases hf
    · next hp => cases hf; exact .root hp
    · next edge parent hp =>
      rw [Lineage.find?] at hf
      split at hf
      · next hfun => cases hf; exact .found hp hfun
      · next hfun =>
        have hup := h.up ha (isParent_of_astParent? hp)
        exact .up hp (by simpa using hfun) (ih hup (by simp only [List.length_cons]; omega) hf)

theorem isSome_find?_iff (ha : g.store.AstAcyclic) {fuel : Nat} {ancestor : NodeId}
    {r : Option Node} (h : g.Climbed id way) (hl : g.store.nodeCount < fuel + way.length)
    (hf : (g.lineageUpTo fuel id).find? (·.id == ancestor) = .ok r) :
    r.isSome = true ↔ g.Below id ancestor := by
  induction fuel generalizing id way with
  | zero =>
    have := h.length_le
    omega
  | succ fuel ih =>
    rw [lineageUpTo] at hf
    split at hf
    · cases hf
    · next hp =>
      cases hf
      refine ⟨by simp, fun hb => ?_⟩
      cases hb with
      | parent hp' => rw [hp] at hp'; cases hp'
      | up hp' => rw [hp] at hp'; cases hp'
    · next edge parent hp =>
      rw [below_iff hp]
      rw [Lineage.find?] at hf
      split at hf
      · next hid => cases hf; exact iff_of_true rfl (.inl (by simpa using hid))
      · next hid =>
        have hup := h.up ha (isParent_of_astParent? hp)
        rw [ih hup (by simp only [List.length_cons]; omega) hf]
        exact (or_iff_right (by simpa using hid)).symm

end Climbed

theorem isBelow_iff (ha : g.store.AstAcyclic) {id ancestor : NodeId} {b : Bool}
    (h : g.isBelow id ancestor = .ok b) : b = true ↔ g.Below id ancestor := by
  obtain ⟨r, hf, h⟩ := exists_of_bind h
  cases h
  exact Climbed.start.isSome_find?_iff ha (by simp) hf

theorem within_of_enclosingFunction? (ha : g.store.AstAcyclic) {id : NodeId} {r : Option Node}
    (hf : g.enclosingFunction? id = .ok r) : g.Within id r :=
  Climbed.start.within_of_find? ha (by simp) hf

/-- A node for which no parent is found has none. -/
theorem incoming_of_astParent? {id : NodeId} (h : g.astParent? id = .ok none) :
    g.store.incoming id (some .ast) = [] := by
  obtain ⟨edges, hedges, h⟩ := exists_of_bind h
  obtain ⟨-, rfl⟩ := (incoming_agree (Alike.self g) id (by simp)).of_ok hedges
  split at h
  · next hnil => exact hnil
  · obtain ⟨parent, -, h⟩ := exists_of_bind h
    cases h

section Forest

variable {store : Store} {id : NodeId}

theorem IsParent.astParent?_eq (hf : store.AstForest) {edge : Edge} {parent : Node}
    (p : store.service.IsParent id edge parent) :
    store.service.astParent? id = .ok (some (edge, parent)) := by
  have hnode : store.service.node edge.source = .ok parent := Store.service_node p.node
  have hin : store.service.incoming id (some .ast) = .ok [edge] := by
    rw [← hf.incoming_eq p.ast, p.target]
    rfl
  simp only [astParent?, hin, hnode, bind, Except.bind]

/-- Where each node has one parent, the way up is the way down turned around. -/
theorem below_iff_transGen (hc : store.Closed) (hf : store.AstForest) {ancestor : NodeId} :
    store.service.Below id ancestor ↔ Relation.TransGen store.AstStep ancestor id := by
  have hparent : ∀ {a id}, store.AstStep a id →
      ∃ edge parent, store.service.astParent? id = .ok (some (edge, parent)) ∧ parent.id = a := by
    rintro a id ⟨edge, hedge, rfl, ht⟩
    obtain ⟨parent, hn⟩ := Store.hasNode_iff.mp (hc edge hedge.1).1
    exact ⟨edge, parent, IsParent.astParent?_eq hf ⟨hedge, ht, hn⟩, Store.id_of_node? hn⟩
  refine ⟨Below.transGen, fun h => ?_⟩
  induction h with
  | single hs =>
    obtain ⟨edge, parent, hp, rfl⟩ := hparent hs
    exact .parent hp
  | tail _ hs ih =>
    obtain ⟨edge, parent, hp, rfl⟩ := hparent hs
    exact .up hp ih

end Forest

end Service

end RequestFlow

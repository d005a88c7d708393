/-
What building adds to a graph. A form is built as a node whose children are hung
below it; this gives out new ids and adds nodes for them, and only the new nodes
get children.

A build is described from the graph it ends up in: `Builds P m Q` says that `Q`
holds there of what `m` returns, if `P` holds there of what `m` was given and
nothing is ever hung below the nodes of `m` by others. What was built before a
step is then known after it without a word.
-/
import Mathlib.Data.List.Forall2
import RequestFlow.Graph.Builder
import RequestFlow.Proofs.Graph.Store

namespace RequestFlow

/-! ## What is added -/

namespace Builder

/-- Those of the edges that lead from the node to its children. -/
def kidEdges (es : List Edge) (id : NodeId) : List Edge :=
  es.filter fun e => Relation.ast == e.relation && e.source == id

/-- `b'` has nodes for the ids given since `b`. The other nodes stay, and get the children
that the edges `es` lead to. -/
structure Adds (es : List Edge) (b b' : Builder) : Prop where
  next_le : b.nextId ≤ b'.nextId
  hasNode : ∀ id, b.nextId ≤ id → id < b'.nextId → b'.store.hasNode id = true
  node?_eq : ∀ id < b.nextId, b'.store.node? id = b.store.node? id
  outgoing_eq : ∀ id, id < b.nextId ∨ b'.nextId ≤ id →
    b'.store.outgoing id (some .ast) = b.store.outgoing id (some .ast) ++ kidEdges es id

/-- The ids given from `b` to `b'` were unused in `b`, and the graph has for them what `b'` has. -/
structure Covers (store : Store) (b b' : Builder) : Prop where
  fresh : ∀ id, b.nextId ≤ id → id < b'.nextId → b.store.outgoing id (some .ast) = []
  node?_eq : ∀ id, b.nextId ≤ id → id < b'.nextId → store.node? id = b'.store.node? id
  outgoing_eq : ∀ id, b.nextId ≤ id → id < b'.nextId →
    store.outgoing id (some .ast) = b'.store.outgoing id (some .ast)

variable {b b' b'' : Builder} {es es' : List Edge} {store : Store}

theorem kidEdges_append (es es' : List Edge) (id : NodeId) :
    kidEdges (es ++ es') id = kidEdges es id ++ kidEdges es' id := List.filter_append _ _

theorem kidEdges_eq_nil {id : NodeId} (h : ∀ e ∈ es, e.relation = .ast → e.source ≠ id) :
    kidEdges es id = [] := by
  rw [kidEdges, List.filter_eq_nil_iff]
  intro e he hk
  simp only [Bool.and_eq_true, beq_iff_eq] at hk
  exact h e he hk.1.symm hk.2

namespace Adds

theorem refl (b : Builder) : Adds [] b b where
  next_le := Nat.le_refl _
  hasNode _ hle hlt := absurd hlt (Nat.not_lt.mpr hle)
  node?_eq _ _ := rfl
  outgoing_eq _ _ := (List.append_nil _).symm

theorem trans (h : Adds es b b') (h' : Adds es' b' b'') : Adds (es ++ es') b b'' where
  next_le := Nat.le_trans h.next_le h'.next_le
  hasNode id hle hlt := by
    by_cases hid : id < b'.nextId
    · rw [Store.hasNode, h'.node?_eq id hid]
      exact h.hasNode id hle hid
    · exact h'.hasNode id (Nat.not_lt.mp hid) hlt
  node?_eq id hlt := by rw [h'.node?_eq id (Nat.lt_of_lt_of_le hlt h.next_le), h.node?_eq id hlt]
  outgoing_eq id hid := by
    have hle := h.next_le
    have hle' := h'.next_le
    rw [h'.outgoing_eq id (by lia), h.outgoing_eq id (by lia), List.append_assoc,
      ← kidEdges_append]

/-- Edges that leave only new nodes add nothing to the others. -/
theorem closed (h : Adds es b b')
    (hs : ∀ e ∈ es, e.relation = .ast → b.nextId ≤ e.source ∧ e.source < b'.nextId) :
    Adds [] b b' where
  next_le := h.next_le
  hasNode := h.hasNode
  node?_eq := h.node?_eq
  outgoing_eq id hid := by
    have hnil : kidEdges es id = [] := kidEdges_eq_nil fun e he hr => by
      have := hs e he hr
      lia
    rw [h.outgoing_eq id hid, hnil]
    rfl

theorem insertNode (b : Builder) {node : Node} (h : node.id = b.nextId) :
    Adds [] b { b with nextId := b.nextId + 1, store := b.store.insertNode node } where
  next_le := Nat.le_succ _
  hasNode id hle hlt := by
    rw [Store.hasNode, Store.node?_insertNode_self (by dsimp only at hlt; lia)]
    rfl
  node?_eq id hlt := by
    rw [Store.node?_insertNode, if_neg (by lia)]
  outgoing_eq _ _ := (Store.outgoing_insertNode ..).trans (List.append_nil _).symm

theorem insertEdge (b : Builder) (edge : Edge) :
    Adds [edge] b { b with store := b.store.insertEdge edge } where
  next_le := Nat.le_refl _
  hasNode _ hle hlt := absurd hlt (Nat.not_lt.mpr hle)
  node?_eq _ _ := rfl
  outgoing_eq _ _ := Store.outgoing_insertEdge ..

end Adds

namespace Covers

/-- What a first part made is left alone by a second one that adds edges only to older nodes. -/
theorem left (h : Covers store b b'') (h₂ : Adds es b' b'')
    (hs : ∀ e ∈ es, e.relation = .ast → e.source < b.nextId) : Covers store b b' where
  fresh id hle hlt := h.fresh id hle (Nat.lt_of_lt_of_le hlt h₂.next_le)
  node?_eq id hle hlt := by
    rw [h.node?_eq id hle (Nat.lt_of_lt_of_le hlt h₂.next_le), h₂.node?_eq id hlt]
  outgoing_eq id hle hlt := by
    have hnil : kidEdges es id = [] := kidEdges_eq_nil fun e he hr => by
      have := hs e he hr
      lia
    rw [h.outgoing_eq id hle (Nat.lt_of_lt_of_le hlt h₂.next_le), h₂.outgoing_eq id (.inl hlt),
      hnil, List.append_nil]

theorem right (h : Covers store b b'') (h₁ : Adds es b b')
    (hs : ∀ e ∈ es, e.relation = .ast → e.source < b'.nextId) : Covers store b' b'' where
  fresh id hle hlt := by
    have hnil : kidEdges es id = [] := kidEdges_eq_nil fun e he hr => by
      have := hs e he hr
      lia
    rw [h₁.outgoing_eq id (.inr hle), h.fresh id (Nat.le_trans h₁.next_le hle) hlt, hnil]
    rfl
  node?_eq id hle hlt := h.node?_eq id (Nat.le_trans h₁.next_le hle) hlt
  outgoing_eq id hle hlt := h.outgoing_eq id (Nat.le_trans h₁.next_le hle) hlt

end Covers

end Builder

/-! ## Builds and what they return -/

namespace Build

open Builder

variable {α β : Type} {P P' : Store → Nat → Prop} {Q Q' : Store → Nat → α → Prop}

/-- In a graph that keeps what `m` makes, `Q` holds of the result if `P` holds. The number is
how many levels are looked at: as many as ids have been given, less the `k` nodes above. -/
def Builds (P : Store → Nat → Prop) (m : Build α) (Q : Store → Nat → α → Prop) : Prop :=
  ∀ b, Adds [] b (m.run b).2 ∧ ∀ store, Covers store b (m.run b).2 → ∀ k ≤ b.nextId,
    (∀ depth, b.nextId ≤ depth + k → P store depth) →
      ∀ depth, (m.run b).2.nextId ≤ depth + k → Q store depth (m.run b).1

namespace Builds

theorem pure {a : α} (h : ∀ store depth, P store depth → Q store depth a) :
    Builds P (pure a) Q :=
  fun b => ⟨.refl b, fun store _ _ _ hp depth hd => h store depth (hp depth hd)⟩

theorem bind {m : Build α} {f : α → Build β} {R : Store → Nat → β → Prop} (hm : Builds P m Q)
    (hf : ∀ a, Builds (fun store depth => P store depth ∧ Q store depth a) (f a) R) :
    Builds P (m >>= f) R := by
  intro b
  obtain ⟨hadds, hq⟩ := hm b
  obtain ⟨hadds', hr⟩ := hf (m.run b).1 (m.run b).2
  refine ⟨hadds.trans hadds', fun store hc k hk hp => ?_⟩
  refine hr store (hc.right hadds nofun) k (Nat.le_trans hk hadds.next_le) fun depth hd => ⟨?_, ?_⟩
  · exact hp depth (Nat.le_trans hadds.next_le hd)
  · exact hq store (hc.left hadds' nofun) k hk hp depth hd

theorem pre {m : Build α} (h : Builds P m Q)
    (hp : ∀ store depth, P' store depth → P store depth) : Builds P' m Q := by
  refine fun b => ⟨(h b).1, fun store hc k hk hp' => ?_⟩
  exact (h b).2 store hc k hk fun depth hd => hp store depth (hp' depth hd)

/-- What held before the build still holds after it. -/
theorem post {m : Build α} (h : Builds P m Q)
    (hq : ∀ store depth a, P store depth → Q store depth a → Q' store depth a) :
    Builds P m Q' := by
  refine fun b => ⟨(h b).1, fun store hc k hk hp depth hd => ?_⟩
  exact hq store depth _ (hp depth (Nat.le_trans (h b).1.next_le hd))
    ((h b).2 store hc k hk hp depth hd)

end Builds

theorem builds_setLine (line : Nat) : Builds P (setLine line) fun store depth _ =>
    P store depth :=
  fun b => ⟨⟨Nat.le_refl _, (Adds.refl b).hasNode, fun _ _ => rfl, (Adds.refl b).outgoing_eq⟩,
    fun _ _ _ _ hp depth hd => hp depth hd⟩

end Build

end RequestFlow

/-
Walks of the analyses through the syntax tree. They go up from a node to its
parent until a root, or down from a node to its children while it is rendered.
In a graph without cycles in its tree every such walk ends by itself: no bound
on the number of its steps is ever used up.
-/
import RequestFlow.Proofs.Graph.Tree
import RequestFlow.Proofs.Syntax.Rendering

namespace RequestFlow

namespace Service

variable {g : Service} {short : Bool} {id : NodeId} {way : List NodeId}

/-- The way up ends at a node that has no parent. -/
theorem Climbed.incoming_top (ha : g.store.AstAcyclic) {fuel : Nat} {top : NodeId}
    (h : g.Climbed id way) (hl : g.store.nodeCount < fuel + way.length)
    (ht : (g.lineageUpTo fuel id).top id = .ok top) : g.store.incoming top (some .ast) = [] := by
  induction fuel generalizing id way with
  | zero =>
    have := h.length_le
    omega
  | succ fuel ih =>
    rw [lineageUpTo] at ht
    split at ht
    · cases ht
    · next hp => cases ht; exact incoming_of_astParent? hp
    · next edge parent hp =>
      have hup := h.up ha (isParent_of_astParent? hp)
      exact ih hup (by simp only [List.length_cons]; omega) ht

/-- A bound on the levels of a rendering that exceeds every way down is not used up. -/
theorem renderUpTo_eq {fuel fuel' : Nat} {node : Node} (hn : g.store.Holds node)
    (h : ∀ way, (node.id :: way).IsChain g.store.AstStep → way.length < fuel)
    (h' : ∀ way, (node.id :: way).IsChain g.store.AstStep → way.length < fuel') :
    g.renderUpTo short fuel node = g.renderUpTo short fuel' node := by
  induction fuel generalizing fuel' node with
  | zero => exact absurd (h [] (.singleton _)) (Nat.lt_irrefl 0)
  | succ fuel ih =>
    cases fuel' with
    | zero => exact absurd (h' [] (.singleton _)) (Nat.lt_irrefl 0)
    | succ fuel' =>
      have hkids : Agree .same (fun kids => ∀ kid ∈ kids, ∃ edge, g.IsChild node.id edge kid.2)
          (g.astChildren node.id) (g.astChildren node.id) :=
        (astChildren_agree (Alike.self g) node.id).imp fun kids hk kid hm => ⟨kid.1, hk kid hm⟩
      -- A way down from a child is one step shorter than the way from the node.
      have hbelow : ∀ {edge child bound}, g.IsChild node.id edge child →
          (∀ way, (node.id :: way).IsChain g.store.AstStep → way.length < bound + 1) →
            ∀ way, (child.id :: way).IsChain g.store.AstStep → way.length < bound :=
        fun hc hb way hway => Nat.lt_of_succ_lt_succ (hb (_ :: way) (.cons_cons hc.astStep hway))
      have hr : Writing.RenderersAgree .same g (fun child => ∃ edge, g.IsChild node.id edge child)
          (g.renderUpTo short fuel) (g.renderUpTo short fuel') := by
        rintro child ⟨edge, hc⟩
        rw [← ih hc.holds (hbelow hc h) (hbelow hc h')]
        exact renderUpTo_agree (Alike.self g) short fuel child hc.holds
      have hsame : Agree .same (·.identifiers.Sound g) (g.renderUpTo short (fuel + 1) node)
          (g.renderUpTo short (fuel' + 1) node) :=
        (Rendered.write_alike hr hn hkids {} IdentifierMap.sound_empty).bind fun _ hp =>
          .answer hp.2
      exact hsame.eq

end Service

namespace Store

variable {store : Store}

/-- Every walk through the syntax tree ends. -/
structure WalksEnd (store : Store) : Prop where
  /-- No walk has more steps than there are nodes, whether it goes down or up. -/
  down : ∀ way : List NodeId, way.IsChain store.AstStep → way.length ≤ store.nodeCount + 1
  up : ∀ way : List NodeId, way.IsChain (fun a b => store.AstStep b a) →
    way.length ≤ store.nodeCount + 1
  /-- The way up is not cut short: it ends at a root. -/
  lineage : ∀ id fuel, store.nodeCount < fuel →
    store.service.lineageUpTo fuel id = store.service.lineage id
  root : ∀ id, ∃ top, (store.service.lineage id).top id = .ok top ∧
    store.incoming top (some .ast) = []
  /-- A rendering is not cut short. -/
  render : ∀ node, store.Holds node → ∀ short,
    (∃ rendered, store.service.renderNode node short = .ok rendered) ∧
      ∀ fuel, store.nodeCount < fuel →
        store.service.renderUpTo short fuel node = store.service.renderNode node short

theorem walksEnd (hc : store.Closed) (ha : store.AstAcyclic) : store.WalksEnd where
  down way h := ha.length_le hc h
  up way h := by
    have hdown := ha.length_le hc (List.isChain_reverse.mpr h)
    rwa [List.length_reverse] at hdown
  lineage id fuel hf := Service.Climbed.start.lineageUpTo_eq ha hf (by simp)
  root id := by
    obtain ⟨top, htop, -⟩ := ((Service.lineage_alike (.of_closed hc) id).top_agree id).exists_ok
    exact ⟨top, htop, Service.Climbed.start.incoming_top ha (by simp) htop⟩
  render node hn short := by
    have hlevels : ∀ way, (node.id :: way).IsChain store.AstStep → way.length ≤ store.nodeCount :=
      fun way h => Nat.le_of_succ_le_succ (ha.length_le hc h)
    obtain ⟨rendered, hr, -⟩ := (Service.renderNode_agree (.of_closed hc) hn short).exists_ok
    refine ⟨⟨rendered, hr⟩, fun fuel hf => Service.renderUpTo_eq hn ?_ ?_⟩
    · exact fun way h => Nat.lt_of_le_of_lt (hlevels way h) hf
    · exact fun way h => Nat.lt_succ_of_le (hlevels way h)

end Store

end RequestFlow

/-
What a resolver answers. Whether it remembers an occurrence of `this`, reads
stored edges or computes and stores the owners, the answer is the one that the
graph gave at first (`Service.owned`): what is written for one occurrence is
never read for another, and a transaction that fails leaves nothing behind.
-/
import RequestFlow.Proofs.Graph.Transaction
import RequestFlow.Proofs.Owner.Found
import RequestFlow.Proofs.Trace.Twins

namespace RequestFlow

variable {mode : Mode} {keep keep' : Bool}

namespace Resolution

variable {r : Resolution}

/-- The edges that store a resolution leave the occurrence of `this`. -/
theorem of_mem_edges {this : NodeId} {edge : Edge} (he : edge ∈ r.edges this) :
    edge.source = this ∧ edge.relation = .pointsTo := by
  rw [edges, List.mem_append, List.mem_flatMap, List.mem_map] at he
  rcases he with ⟨m, -, he⟩ | ⟨event, -, rfl⟩
  · rw [attachmentEdges] at he
    split at he
    · rw [List.mem_singleton.mp he]
      exact ⟨rfl, rfl⟩
    · simp only [List.mem_cons, List.not_mem_nil, or_false] at he
      rcases he with rfl | rfl <;> exact ⟨rfl, rfl⟩
  · exact ⟨rfl, rfl⟩

/-- Something is stored wherever `this` has an owner. -/
theorem edges_ne_nil (hr : r.methods ≠ []) (this : NodeId) : r.edges this ≠ [] := by
  obtain ⟨m, rest, hm⟩ := List.exists_cons_of_ne_nil hr
  rw [edges, hm, List.flatMap_cons, attachmentEdges]
  cases m.owner <;> simp

end Resolution

namespace Service

variable {g : Service}

theorem holds_of_child? {id : NodeId} {relationType : String} {position : Option Nat} {node : Node}
    (hc : g.child? id relationType position = .ok (some node)) :
    ∃ edge, g.IsChild id edge node := by
  exact ((child?_agree (Alike.self g) id relationType position).of_ok hc).2 node rfl

/-- The expression that attaches a function and the owner it names exist. -/
theorem Attached.held {function : Node} {m : Attachment} (hm : g.Attached function m) :
    g.store.hasNode m.top = true ∧ ∃ id, m.owner = .node id ∧ g.store.hasNode id = true := by
  cases hm with
  | member hn _ _ _ ho =>
    obtain ⟨_, hc⟩ := holds_of_child? ho
    exact ⟨hn.hasNode, _, rfl, hc.holds.hasNode⟩
  | receiver hn _ hr =>
    obtain ⟨_, hc⟩ := ((childrenIn_agree (Alike.self g) _ _ _).of_ok hr).2 _ List.mem_cons_self
    exact ⟨hn.hasNode, _, rfl, hc.holds.hasNode⟩
  | property hp _ _ _ hq =>
    have hchild := hq.elim (fun h => holds_of_child? h.2) (fun h => holds_of_child? h.2)
    obtain ⟨_, hc⟩ := hchild
    have hparent := ((astParent?_agree (Alike.self g) _).of_ok hp).2 _ rfl
    exact ⟨hparent.holds.hasNode, _, rfl, hc.holds.hasNode⟩

theorem Resolved.ownersHeld {r : Resolution} (hr : g.Resolved r) : OwnersHeld g r.owners where
  methods m hm id hid := by
    rcases hr.methods with ⟨top, -, hw⟩ | ⟨-, -, function, ha⟩
    · have : m = ⟨top, .window⟩ := by simpa [Resolution.owners, hw] using hm
      rw [this] at hid
      cases hid
    · obtain ⟨-, id', ho, he⟩ := (ha m hm).held
      rw [ho] at hid
      cases hid
      exact he
  events := hr.events

/-- The edges that store a resolution leave the occurrence of `this` and end at existing nodes. -/
theorem Resolved.edges {r : Resolution} (hr : g.Resolved r) {this : NodeId} {edge : Edge}
    (he : edge ∈ r.edges this) :
    edge.source = this ∧ edge.relation = .pointsTo ∧ g.store.hasNode edge.target = true := by
  refine ⟨(Resolution.of_mem_edges he).1, (Resolution.of_mem_edges he).2, ?_⟩
  rw [Resolution.edges, List.mem_append, List.mem_flatMap, List.mem_map] at he
  rcases he with ⟨m, hm, he⟩ | ⟨event, hm, rfl⟩
  · have htop : g.store.hasNode m.top = true := by
      rcases hr.methods with ⟨top, hheld, hw⟩ | ⟨-, -, function, ha⟩
      · have : m = ⟨top, .window⟩ := by simpa [hw] using hm
        rwa [this]
      · exact (ha m hm).held.1
    rw [Resolution.attachmentEdges] at he
    split at he
    · rwa [List.mem_singleton.mp he]
    · next id hid =>
      have howner := hr.ownersHeld.methods m hm id hid
      simp only [List.mem_cons, List.not_mem_nil, or_false] at he
      rcases he with rfl | rfl
      · exact htop
      · exact howner
  · exact hr.events event hm

theorem Resolved.methods_ne_nil {r : Resolution} (hr : g.Resolved r) : r.methods ≠ [] := by
  rcases hr.methods with ⟨top, -, hw⟩ | ⟨hne, -⟩
  · simp [hw]
  · exact hne

/-- Whether a write goes through depends on the source and the family of the edge only. -/
def WritesAlike (g : Service) : Prop :=
  ∀ e e' : Edge, e.source = e'.source → e.relation = e'.relation →
    g.outage (.createEdge e) = g.outage (.createEdge e')

theorem writesAlike_service (store : Store) : store.service.WritesAlike := fun _ _ _ _ => rfl

/-- Whether owners of `this` can be stored, if `keep` says to store them. -/
def mayStore (keep : Bool) (g : Service) (this : NodeId) : Except GraphFault Unit :=
  if keep then g.ask (.createEdge (Resolution.edge this this "" "")) () else .ok ()

/-- A transaction whose writes are all refused leaves nothing behind. -/
theorem commit_refused {this : NodeId} {r : Resolution} (hr : r.methods ≠ []) {fault : GraphFault}
    (hf : ∀ edge ∈ r.edges this, g.createEdge edge = .error fault) :
    (Transaction.ofEdges (r.edges this)).commit g = (.error fault, g) := by
  -- The first write fails, and there is one.
  have hne : firsts (r.edges this) ≠ [] := by
    intro hnil
    obtain ⟨edge, hm⟩ := List.exists_mem_of_ne_nil _ (Resolution.edges_ne_nil hr this)
    simpa [hnil] using mem_firsts.mpr hm
  obtain ⟨edge, rest, hl⟩ := List.exists_cons_of_ne_nil hne
  have hmem : edge ∈ r.edges this := mem_firsts.mp (by rw [hl]; exact List.mem_cons_self)
  rw [Transaction.commit, Transaction.pending_ofEdges, hl, Transaction.writeAll, hf edge hmem]
  rfl

/-- The transaction that stores a resolution does all of its writes or none. -/
theorem commit_edges (hw : g.WritesAlike) {this : NodeId} (he : g.store.hasNode this = true)
    {r : Resolution} (hr : g.Resolved r) :
    (∃ h new count, g.mayStore true this = .ok () ∧
      (Transaction.ofEdges (r.edges this)).commit g = (.ok count, h) ∧ g.Grown h new ∧
      new ⊆ r.edges this ∧
      ((∀ edge ∈ r.edges this, edge ∉ g.store.edges) → new = firsts (r.edges this))) ∨
    ∃ fault, g.mayStore true this = .error fault ∧
      (Transaction.ofEdges (r.edges this)).commit g = (.error fault, g) := by
  have hout : ∀ edge ∈ r.edges this,
      g.outage (.createEdge edge) = g.outage (.createEdge (Resolution.edge this this "" "")) :=
    fun edge hm => hw _ _ (hr.edges hm).1 (hr.edges hm).2.1
  rw [mayStore, if_pos rfl, ask]
  cases ho : g.outage (.createEdge (Resolution.edge this this "" "")) with
  | none =>
    have hnone : ∀ edge ∈ firsts (r.edges this), g.refusal? edge = none := by
      intro edge hm
      obtain ⟨hs, -, ht⟩ := hr.edges (mem_firsts.mp hm)
      exact refusal?_eq_none.mpr ⟨(hout edge (mem_firsts.mp hm)).trans ho, hs ▸ he, ht⟩
    obtain ⟨h, hrun, hg⟩ := Transaction.writeAll_grown hnone
    rw [additions_firsts] at hg
    rw [Transaction.commit, Transaction.pending_ofEdges]
    refine .inl ⟨h, _, _, rfl, by rw [hrun]; rfl, hg, fun e hm => (mem_additions.mp hm).1, ?_⟩
    exact fun hnew => additions_of_new hnew
  | some reason =>
    refine .inr ⟨_, rfl, commit_refused hr.methods_ne_nil fun edge hm => ?_⟩
    rw [createEdge, ask, (hout edge hm).trans ho]
    rfl

/-- The owners of an occurrence of `this` as a graph has them: stored, or else computed, and then
stored if `keep` says so. -/
def owned (keep : Bool) (g : Service) (this : NodeId) : Except GraphFault Resolution := do
  match Resolution.ofEdges? (← g.outgoing this (some .pointsTo)) with
  | some r => .ok r
  | none =>
    let r ← g.computeOwners this
    g.mayStore keep this
    .ok r

theorem owned_congr {h : Service} (a : Alike .same g h) (ho : h.outage = g.outage) {this : NodeId}
    (hout : h.store.outgoing this (some .pointsTo) = g.store.outgoing this (some .pointsTo)) :
    h.owned keep this = g.owned keep this := by
  have hread : h.outgoing this (some .pointsTo) = g.outgoing this (some .pointsTo) := by
    rw [outgoing, outgoing, ask, ask, ho, hout]
  have hcompute := (computeOwners_agree_or a this).eq
  have hstore : h.mayStore keep this = g.mayStore keep this := by
    rw [mayStore, mayStore, ask, ask, ho]
  rw [owned, owned, hread, ← hcompute, hstore]

end Service

namespace Resolver

open Service (WritesAlike Grown)

variable {g : Service} {this : NodeId}

/-- The graph after owners have been found. -/
inductive Finds (keep : Bool) (g : Service) (this : NodeId) :
    Except GraphFault Resolution → Service → Prop
  | failed {fault} : Finds keep g this (.error fault) g
  | read {r} (hr : Resolution.ofEdges? (g.store.outgoing this (some .pointsTo)) = some r) :
    Finds keep g this (.ok r) g
  | computed {r} (hk : keep = false) : Finds keep g this (.ok r) g
  | stored {r h new} (hk : keep = true) (hc : g.computeOwners this = .ok r)
    (hn : Resolution.ofEdges? (g.store.outgoing this (some .pointsTo)) = none)
    (hg : Grown g h new) (hs : new ⊆ r.edges this)
    (ha : (∀ edge ∈ r.edges this, edge ∉ g.store.edges) → new = firsts (r.edges this)) :
    Finds keep g this (.ok r) h

theorem find_finds (keep : Bool) (hw : g.WritesAlike) (he : g.store.hasNode this = true) :
    (find keep g this).1 = g.owned keep this ∧
      Finds keep g this (find keep g this).1 (find keep g this).2 := by
  unfold find Service.owned Service.outgoing
  rw [Service.ask_eq_map]
  cases g.ask (.outgoing this (some .pointsTo)) () with
  | error fault => exact ⟨rfl, .failed⟩
  | ok _ =>
    simp only [Except.map, bind, Except.bind]
    cases hr : Resolution.ofEdges? (g.store.outgoing this (some .pointsTo)) with
    | some r => exact ⟨rfl, .read hr⟩
    | none =>
      cases hc : g.computeOwners this with
      | error fault => exact ⟨rfl, .failed⟩
      | ok r =>
        have hres := Service.resolved_of_computeOwners he hc
        cases keep with
        | false => exact ⟨rfl, .computed rfl⟩
        | true =>
          rcases Service.commit_edges hw he hres with
            ⟨h, new, count, hmay, hcommit, hg, hs, hall⟩ | ⟨fault, hmay, hcommit⟩
          · simp only [if_true, hcommit, hmay, true_and]
            exact .stored rfl hc hr hg hs hall
          · simp only [if_true, hcommit, hmay, true_and]
            exact .failed

/-- What becomes of a resolver that is asked for an occurrence of `this`. -/
inductive Resolves (keep : Bool) (r : Resolver) (this : NodeId) :
    Except GraphFault Resolution → Resolver → Prop
  | known {res} (hm : (this, res) ∈ r.known) : Resolves keep r this (.ok res) r
  | failed {fault} (hl : r.known.lookup this = none)
    (ho : r.graph.owned keep this = .error fault) : Resolves keep r this (.error fault) r
  | found {res h} (hl : r.known.lookup this = none) (ho : r.graph.owned keep this = .ok res)
    (hf : Finds keep r.graph this (.ok res) h) :
    Resolves keep r this (.ok res) ⟨h, (this, res) :: r.known⟩

/-- A resolver over `b`: its graph is `b` with owners written between existing nodes for what it
remembers, and it remembers what `b` has. -/
structure Sound (keep : Bool) (b : Service) (r : Resolver) : Prop where
  outage : r.graph.outage = b.outage
  nodes : r.graph.store.nodes = b.store.nodes
  edges : r.graph.store.properEdges = b.store.properEdges
  ends : ∀ edge ∈ r.graph.store.edges, edge ∈ b.store.edges ∨
    b.store.hasNode edge.source = true ∧ b.store.hasNode edge.target = true
  unknown : ∀ this, r.known.lookup this = none →
    r.graph.store.outgoing this (some .pointsTo) = b.store.outgoing this (some .pointsTo)
  known : ∀ entry ∈ r.known, b.owned keep entry.1 = .ok entry.2

namespace Sound

variable {b : Service} {r : Resolver}

theorem new (keep : Bool) (b : Service) : Sound keep b ⟨b, []⟩ :=
  ⟨rfl, rfl, rfl, fun _ => .inl, fun _ _ => rfl, nofun⟩

theorem alike (hs : Sound keep b r) : Service.Alike .same b r.graph :=
  .of_outage hs.outage hs.nodes hs.edges

/-- Owners that are written leave no edge without its ends. -/
theorem closed (hs : Sound keep b r) (hc : b.store.Closed) : r.graph.store.Closed := by
  intro edge hm
  rw [Store.hasNode_congr hs.nodes, Store.hasNode_congr hs.nodes]
  exact (hs.ends edge hm).elim (hc edge) id

theorem writesAlike (hs : Sound keep b r) (hw : b.WritesAlike) : r.graph.WritesAlike := by
  intro e e' hsource hrel
  rw [hs.outage]
  exact hw e e' hsource hrel

/-- What is not remembered is as it was. -/
theorem owned_eq (hs : Sound keep b r) (hu : r.known.lookup this = none) :
    r.graph.owned keep this = b.owned keep this :=
  Service.owned_congr hs.alike hs.outage (hs.unknown this hu)

/-- Owners written for `this`, which is remembered from now on. -/
theorem grow (hs : Sound keep b r) {h : Service} {new : List Edge} (hg : r.graph.Grown h new)
    (hn : ∀ edge ∈ new, edge.source = this ∧ edge.relation = .pointsTo)
    (he : ∀ edge ∈ new, b.store.hasNode edge.source = true ∧ b.store.hasNode edge.target = true)
    {res : Resolution} (ho : b.owned keep this = .ok res) :
    Sound keep b ⟨h, (this, res) :: r.known⟩ where
  outage := hg.outage.trans hs.outage
  nodes := hg.nodes.trans hs.nodes
  edges := (hg.properEdges fun edge hm => (hn edge hm).2).trans hs.edges
  ends edge hm := (hg.mem_edges.mp hm).elim (hs.ends edge) fun hnew => .inr (he edge hnew)
  unknown other hu := by
    rw [List.lookup_cons] at hu
    have hne : (other == this) = false := by
      cases h : other == this with
      | false => rfl
      | true => rw [h] at hu; cases hu
    rw [hne] at hu
    have hnil : (new.filter fun e =>
        (some Relation.pointsTo).all (· == e.relation) && e.source == other) = [] := by
      rw [List.filter_eq_nil_iff]
      intro edge hm
      rw [(hn edge hm).1]
      simp [Ne.symm (beq_eq_false_iff_ne.mp hne)]
    rw [hg.outgoing, hnil, List.append_nil, hs.unknown other hu]
  known := List.forall_mem_cons.mpr ⟨ho, hs.known⟩

/-- All that resolving can do. -/
theorem resolves (hs : Sound keep b r) (hw : b.WritesAlike) (he : b.store.hasNode this = true) :
    Resolves keep r this (r.resolve keep this).1 (r.resolve keep this).2 := by
  unfold Resolver.resolve
  cases hl : r.known.lookup this with
  | some res => exact .known (mem_of_lookup hl)
  | none =>
    have he' : r.graph.store.hasNode this = true := by rwa [Store.hasNode_congr hs.nodes]
    obtain ⟨hfst, hfinds⟩ := find_finds keep (hs.writesAlike hw) he'
    generalize find keep r.graph this = found at hfst hfinds
    obtain ⟨outcome, h⟩ := found
    cases outcome with
    | error fault =>
      cases hfinds
      exact .failed hl hfst.symm
    | ok res => exact .found hl hfst.symm hfinds

/-- **A resolver answers what the graph had at first**, and goes on to do so. -/
theorem resolve (hs : Sound keep b r) (hw : b.WritesAlike) (he : b.store.hasNode this = true) :
    (r.resolve keep this).1 = b.owned keep this ∧ Sound keep b (r.resolve keep this).2 := by
  have hstep := hs.resolves hw he
  generalize (r.resolve keep this).1 = outcome at hstep ⊢
  generalize (r.resolve keep this).2 = next at hstep ⊢
  cases hstep with
  | known hm => exact ⟨(hs.known _ hm).symm, hs⟩
  | failed hl ho => exact ⟨ho.symm.trans (hs.owned_eq hl), hs⟩
  | found hl ho hfinds =>
    rw [hs.owned_eq hl] at ho
    refine ⟨ho.symm, ?_⟩
    cases hfinds with
    | read hr => exact hs.grow (.refl _) nofun nofun ho
    | computed hk => exact hs.grow (.refl _) nofun nofun ho
    | stored _ hc _ hg hsub _ =>
      have he' : r.graph.store.hasNode this = true := by rwa [Store.hasNode_congr hs.nodes]
      have hres := Service.resolved_of_computeOwners he' hc
      refine hs.grow hg (fun edge hm => Resolution.of_mem_edges (hsub hm)) (fun edge hm => ?_) ho
      obtain ⟨hsource, -, htarget⟩ := hres.edges (hsub hm)
      rw [Store.hasNode_congr hs.nodes] at htarget
      exact ⟨by rwa [hsource], htarget⟩

end Sound

/-- Resolvers over graphs that have the same owners of `this`. -/
theorem bridge {b b' : Service} (hw : b.WritesAlike) (hw' : b'.WritesAlike)
    (ho : ∀ this, b.store.hasNode this = true → b'.store.hasNode this = true ∧
      Agree mode (fun owners => mode = .total → OwnersHeld b owners)
        ((b.owned keep this).map Resolution.owners) ((b'.owned keep' this).map Resolution.owners)) :
    Bridge mode keep keep' b b' fun r r' => Sound keep b r ∧ Sound keep' b' r' where
  left h := h.1.alike
  right h := h.2.alike
  owners := by
    rintro r r' this ⟨hs, hs'⟩ he
    obtain ⟨he', hagree⟩ := ho this he
    obtain ⟨hfst, hsound⟩ := hs.resolve hw he
    obtain ⟨hfst', hsound'⟩ := hs'.resolve hw' he'
    rw [Resolver.owners, Resolver.owners, hfst, hfst']
    generalize (b.owned keep this).map Resolution.owners = x at hagree
    generalize (b'.owned keep' this).map Resolution.owners = y at hagree
    cases hagree with
    | answer ha => exact .answer ha ⟨hsound, hsound'⟩
    | fault ht hsame => exact .fault ht fun hm => ⟨hsame hm, hsound, hsound'⟩

/-- A resolver beside itself. -/
theorem bridge_self {b : Service} (hw : b.WritesAlike) :
    Bridge .same keep keep b b fun r r' => Sound keep b r ∧ Sound keep b r' :=
  bridge hw hw fun _ he => ⟨he, .of_eq (by decide) fun _ _ hm => nomatch hm⟩

end Resolver

namespace Service

variable {g h : Service}

/-- Owners that are read back stand at the ends of stored edges. -/
theorem ownersHeld_of_ofEdges? {edges : List Edge} {r : Resolution}
    (hr : Resolution.ofEdges? edges = some r)
    (he : ∀ edge ∈ edges, g.store.hasNode edge.target = true) : OwnersHeld g r.owners := by
  unfold Resolution.ofEdges? at hr
  extract_lets window tops owners events methods res at hr
  split at hr
  · cases hr
  obtain rfl : r = res := (Option.some.inj hr).symm
  constructor
  · intro m hm id hid
    rcases List.mem_append.mp (mem_firsts.mp hm) with hm | hm
    · obtain ⟨edge, -, rfl⟩ := List.mem_map.mp hm
      cases hid
    · obtain ⟨⟨top, owner⟩, hzip, rfl⟩ := List.mem_map.mp hm
      cases hid
      exact he owner (List.mem_filter.mp (List.of_mem_zip hzip).2).1
  · intro id hm
    obtain ⟨edge, hevent, rfl⟩ := List.mem_map.mp (mem_firsts.mp hm)
    exact he edge (List.mem_filter.mp hevent).1

/-- Graphs with the same edges on which reading and writing go alike have the same owners. -/
theorem owned_agree (a : Alike mode g h) (hc : mode = .total → g.store.Closed) {this : NodeId}
    (he : g.store.hasNode this = true)
    (hread : Agree mode (· = g.store.outgoing this (some .pointsTo))
      (g.outgoing this (some .pointsTo)) (h.outgoing this (some .pointsTo)))
    (hstore : Agree mode (fun _ => True) (g.mayStore keep this) (h.mayStore keep' this)) :
    Agree mode (fun owners => mode = .total → OwnersHeld g owners)
      ((g.owned keep this).map Resolution.owners) ((h.owned keep' this).map Resolution.owners) := by
  refine Agree.map (P := fun r => mode = .total → OwnersHeld g r.owners) ?_ fun _ h => h
  unfold owned
  refine hread.bind fun edges hedges => ?_
  split
  · next r hr =>
    refine .answer fun ht => ownersHeld_of_ofEdges? hr fun edge hm => ?_
    exact (hc ht edge (Store.mem_outgoing.mp (hedges ▸ hm)).1).2
  · refine (computeOwners_agree a he).bind fun r hr => ?_
    refine hstore.bind fun _ _ => ?_
    exact .answer fun _ => hr.ownersHeld

end Service

end RequestFlow

/-
Owners of `this` that have been stored are read back as they were found. In a
tree, the expressions that attach one function are distinct, and so are the
owners they name: no edge is stored twice, and tops and owners pair up again.
-/
import Mathlib.Data.List.Nodup
import RequestFlow.Proofs.Graph.Tree
import RequestFlow.Proofs.Owner.Resolver

namespace RequestFlow

namespace Service

variable {g : Service} {function : Node} {m m' : Attachment}

theorem astStep_of_child? {id : NodeId} {relationType : String} {position : Option Nat} {node : Node}
    (hc : g.child? id relationType position = .ok (some node)) : g.store.AstStep id node.id := by
  obtain ⟨edge, hchild⟩ := holds_of_child? hc
  exact hchild.astStep

/-- The expression that attaches a function tells the owner. -/
theorem Attached.eq_of_top (hm : g.Attached function m) (hm' : g.Attached function m')
    (h : m.top = m'.top) : m = m' := by
  cases hm with
  | member hn ht hl _ ho =>
    cases hm' with
    | member hn' _ hl' _ ho' =>
      obtain rfl := hn.eq hn' h
      cases hl.symm.trans hl'
      cases ho.symm.trans ho'
      rfl
    | receiver hn' ht' _ => cases hn.eq hn' h; cases ht.symm.trans ht'
    | property hp' ht' _ _ _ =>
      cases hn.eq (isParent_of_astParent? hp').holds h
      cases ht.symm.trans ht'
  | receiver hn ht hr =>
    cases hm' with
    | member hn' ht' _ _ _ => cases hn.eq hn' h; cases ht.symm.trans ht'
    | receiver hn' _ hr' =>
      obtain rfl := hn.eq hn' h
      cases hr.symm.trans hr'
      rfl
    | property hp' ht' _ _ _ =>
      cases hn.eq (isParent_of_astParent? hp').holds h
      cases ht.symm.trans ht'
  | property hp ht ho hh hq =>
    have hn := (isParent_of_astParent? hp).holds
    cases hm' with
    | member hn' ht' _ _ _ => cases hn.eq hn' h; cases ht.symm.trans ht'
    | receiver hn' ht' _ => cases hn.eq hn' h; cases ht.symm.trans ht'
    | property hp' _ ho' hh' hq' =>
      cases hp.symm.trans hp'
      cases ho.symm.trans ho'
      cases hh.symm.trans hh'
      rcases hq with ⟨ht, hq⟩ | ⟨ht, hq⟩ <;> rcases hq' with ⟨ht', hq'⟩ | ⟨ht', hq'⟩
      · cases hq.symm.trans hq'
        rfl
      · cases ht.symm.trans ht'
      · cases ht.symm.trans ht'
      · cases hq.symm.trans hq'
        rfl

/-- What stands right above an owner, by the shape of its attachment. -/
theorem Attached.above (hm : g.Attached function m) : ∃ id holder, m.owner = .node id ∧
    g.store.Holds holder ∧ g.store.AstStep holder.id id ∧
    (holder.type = .memberExpression ∧ g.store.AstStep m.top holder.id ∨
      holder.type = .callExpression ∧ m.top = holder.id ∨
      (holder.type = .variableDeclarator ∨ holder.type = .assignmentExpression) ∧
        ∃ edge property, g.astParent? function.id = .ok (some (edge, property)) ∧
          m.top = property.id) := by
  cases hm with
  | member _ _ hl ht ho =>
    obtain ⟨_, hleft⟩ := holds_of_child? hl
    exact ⟨_, _, rfl, hleft.holds, astStep_of_child? ho, .inl ⟨ht, hleft.astStep⟩⟩
  | receiver hn ht hr =>
    obtain ⟨_, hchild⟩ := ((childrenIn_agree (Alike.self g) _ _ _).of_ok hr).2 _ List.mem_cons_self
    exact ⟨_, _, rfl, hn, hchild.astStep, .inr (.inl ⟨ht, rfl⟩)⟩
  | property hp _ _ hh hq =>
    refine ⟨_, _, rfl, (isParent_of_astParent? hh).holds, ?_, .inr (.inr ⟨?_, _, _, hp, rfl⟩)⟩
    · exact hq.elim (fun h => astStep_of_child? h.2) fun h => astStep_of_child? h.2
    · exact hq.imp And.left And.left

/-- In a tree, the owner tells the expression that attaches a function to it. -/
theorem Attached.eq_of_owner (hf : g.store.AstForest) (hm : g.Attached function m)
    (hm' : g.Attached function m') (h : m.owner = m'.owner) : m = m' := by
  refine hm.eq_of_top hm' ?_
  obtain ⟨id, holder, ho, hn, hstep, hshape⟩ := hm.above
  obtain ⟨id', holder', ho', hn', hstep', hshape'⟩ := hm'.above
  have hid : Owner.node id = Owner.node id' := ho.symm.trans (h.trans ho')
  cases hid
  cases hn.eq hn' (hf.astStep_unique hstep hstep')
  rcases hshape with ⟨ht, htop⟩ | ⟨ht, htop⟩ | ⟨ht, _, _, hp, htop⟩ <;>
    rcases hshape' with ⟨ht', htop'⟩ | ⟨ht', htop'⟩ | ⟨ht', _, _, hp', htop'⟩
  case inl.inl => exact hf.astStep_unique htop htop'
  case inr.inl.inr.inl => rw [htop, htop']
  case inr.inr.inr.inr =>
    cases hp.symm.trans hp'
    rw [htop, htop']
  all_goals simp_all

end Service

/-! ## Writing owners and reading them back -/

namespace Resolution

/-- The window, if it is an owner, and nodes with the expressions that attach to them. -/
def attachments (window : Option NodeId) (pairs : List (NodeId × NodeId)) : List Attachment :=
  window.toList.map (⟨·, .window⟩) ++ pairs.map fun pair => ⟨pair.1, .node pair.2⟩

section

variable (this : NodeId) (window : Option NodeId) (pairs : List (NodeId × NodeId)) (events : List NodeId)
  (cached : Bool)

theorem edges_attachments :
    edges this ⟨attachments window pairs, events, cached⟩ =
      window.toList.map (edge this · topType windowMark) ++
        pairs.flatMap (fun pair => [edge this pair.1 topType "", edge this pair.2 ownerType ""]) ++
        events.map (edge this · ownerType eventMark) := by
  cases window <;> simp [edges, attachments, attachmentEdges, List.flatMap_map]

/-- The edges with a property that only depends on their marks. -/
theorem filter_edges {p : Edge → Bool} {w t o e : Bool}
    (hw : ∀ id, p (edge this id topType windowMark) = w) (ht : ∀ id, p (edge this id topType "") = t)
    (ho : ∀ id, p (edge this id ownerType "") = o)
    (he : ∀ id, p (edge this id ownerType eventMark) = e) :
    (edges this ⟨attachments window pairs, events, cached⟩).filter p =
      (if w then window.toList.map (edge this · topType windowMark) else []) ++
        pairs.flatMap (fun pair => (if t then [edge this pair.1 topType ""] else []) ++
          if o then [edge this pair.2 ownerType ""] else []) ++
        if e then events.map (edge this · ownerType eventMark) else [] := by
  rw [edges_attachments, List.filter_append, List.filter_append, List.filter_flatMap]
  congr 2
  · cases w <;> simp [hw]
  · congr 1
    funext pair
    cases t <;> cases o <;> simp [ht, ho]
  · cases e <;> simp [he]

/-- **Owners are read back as they were stored.** -/
theorem ofEdges?_edges (hne : attachments window pairs ≠ [])
    (hn : (attachments window pairs).Nodup) (he : events.Nodup) :
    ofEdges? (edges this ⟨attachments window pairs, events, cached⟩) =
      some ⟨attachments window pairs, events, true⟩ := by
  have hfilter {p : Edge → Bool} {w t o e : Bool} := filter_edges this window pairs events cached
    (p := p) (w := w) (t := t) (o := o) (e := e)
  unfold ofEdges?
  extract_lets window' tops owners marked methods res
  have hwindow : window' = window.map (edge this · topType windowMark) := by
    refine List.head?_filter.symm.trans ?_
    rw [hfilter (w := true) (t := false) (o := false) (e := false) (fun _ => rfl) (fun _ => rfl)
      (fun _ => rfl) fun _ => rfl]
    cases window <;> simp
  have htops : tops = pairs.map (edge this ·.1 topType "") := by
    refine (hfilter (w := false) (t := true) (o := false) (e := false) (fun _ => rfl) (fun _ => rfl)
      (fun _ => rfl) fun _ => rfl).trans ?_
    simp [List.map_eq_flatMap]
  have howners : owners = pairs.map (edge this ·.2 ownerType "") := by
    refine (hfilter (w := false) (t := false) (o := true) (e := false) (fun _ => rfl) (fun _ => rfl)
      (fun _ => rfl) fun _ => rfl).trans ?_
    simp [List.map_eq_flatMap]
  have hmarked : marked = events.map (edge this · ownerType eventMark) := by
    refine (hfilter (w := false) (t := false) (o := false) (e := true) (fun _ => rfl) (fun _ => rfl)
      (fun _ => rfl) fun _ => rfl).trans ?_
    simp
  have hmethods : methods = attachments window pairs := by
    simp only [methods, hwindow, htops, howners, List.zip_map', List.map_map, attachments]
    cases window <;> rfl
  have htargets : marked.map (·.target) = events := by
    rw [hmarked, List.map_map]
    exact List.map_id _
  have hres : res = ⟨attachments window pairs, events, true⟩ := by
    simp only [res, hmethods, htargets, firsts_of_nodup hn, firsts_of_nodup he]
  rw [hres, isEmpty]
  simp [hne]

end

end Resolution

namespace Service.Resolved

variable {g : Service} {r : Resolution}

/-- What the tree gives is the window alone, or nodes. -/
theorem attachments (hr : g.Resolved r) : ∃ window pairs,
    r.methods = Resolution.attachments window pairs ∧ r.methods ≠ [] ∧ r.methods.Nodup := by
  rcases hr.methods with ⟨top, -, hw⟩ | ⟨hne, hn, function, ha⟩
  · exact ⟨some top, [], by rw [hw]; rfl, by simp [hw], by simp [hw]⟩
  · have hpairs : ∀ ms : List Attachment, (∀ m ∈ ms, g.Attached function m) →
        ∃ pairs, ms = Resolution.attachments none pairs := by
      intro ms ha
      induction ms with
      | nil => exact ⟨[], rfl⟩
      | cons m rest ih =>
        obtain ⟨pairs, rfl⟩ := ih fun m hm => ha m (List.mem_cons_of_mem _ hm)
        obtain ⟨-, id, ho, -⟩ := (ha m List.mem_cons_self).held
        obtain ⟨top, owner⟩ := m
        cases ho
        exact ⟨(top, id) :: pairs, rfl⟩
    obtain ⟨pairs, hp⟩ := hpairs r.methods ha
    exact ⟨none, pairs, hp, hne, hn⟩

theorem ofEdges?_edges (hr : g.Resolved r) (this : NodeId) :
    Resolution.ofEdges? (r.edges this) = some { r with cached := true } := by
  obtain ⟨window, pairs, hm, hne, hn⟩ := hr.attachments
  obtain ⟨methods, events, cached⟩ := r
  cases hm
  exact Resolution.ofEdges?_edges this window pairs events cached hne hn hr.distinct

/-- In a tree no edge is stored twice. -/
theorem nodup_edges (hr : g.Resolved r) (hf : g.store.AstForest) (this : NodeId) :
    (r.edges this).Nodup := by
  have hmethods : (r.methods.flatMap (Resolution.attachmentEdges this)).Nodup := by
    rcases hr.methods with ⟨top, -, hw⟩ | ⟨-, hn, function, ha⟩
    · simp [hw, Resolution.attachmentEdges]
    · rw [List.nodup_flatMap]
      constructor
      · intro m _
        rw [Resolution.attachmentEdges]
        split <;> simp [Resolution.edge, Resolution.topType, Resolution.ownerType]
      · refine hn.imp_of_mem fun {m m'} hm hm' hne edge he he' => hne ?_
        obtain ⟨-, id, ho, -⟩ := (ha m hm).held
        obtain ⟨-, id', ho', -⟩ := (ha m' hm').held
        simp only [Resolution.attachmentEdges, ho, ho', List.mem_cons, List.not_mem_nil,
          or_false] at he he'
        rcases he with rfl | rfl <;> rcases he' with he' | he'
        · exact (ha m hm).eq_of_top (ha m' hm') (congrArg Edge.target he')
        · simp [Resolution.edge, Resolution.topType, Resolution.ownerType] at he'
        · simp [Resolution.edge, Resolution.topType, Resolution.ownerType] at he'
        · refine (ha m hm).eq_of_owner hf (ha m' hm') ?_
          rw [ho, ho', show id = id' from congrArg Edge.target he']
  refine List.nodup_append.mpr ⟨hmethods, ?_, ?_⟩
  · exact List.Nodup.map (fun _ _ h => congrArg Edge.target h) hr.distinct
  · -- Only the edges of events carry their mark.
    rintro edge he _ he' rfl
    obtain ⟨m, -, he⟩ := List.mem_flatMap.mp he
    obtain ⟨event, -, rfl⟩ := List.mem_map.mp he'
    rw [Resolution.attachmentEdges] at he
    split at he <;> simp [Resolution.edge, Resolution.windowMark, Resolution.eventMark] at he

end Service.Resolved

/-! ## Resolving twice -/

namespace Resolver

variable {this : NodeId} {res : Resolution}

/-- Owners that can be read are read, and nothing is written. -/
theorem resolve_of_ofEdges? {g : Service} {edges : List Edge}
    (he : g.outgoing this (some .pointsTo) = .ok edges)
    (hr : Resolution.ofEdges? edges = some res) (keep : Bool) :
    resolve keep ⟨g, []⟩ this = (.ok res, ⟨g, [(this, res)]⟩) := by
  have hfind : find keep g this = (.ok res, g) := by
    unfold find
    simp only [he, hr]
  simp [resolve, hfind]

/-- Where no owners of `this` are stored, those that are found are computed and stored. -/
theorem Finds.stores {g h : Service} (hfinds : Finds true g this (.ok res) h)
    (hn : g.store.outgoing this (some .pointsTo) = []) :
    g.computeOwners this = .ok res ∧ g.Grown h (firsts (res.edges this)) := by
  cases hfinds with
  | read hr =>
    rw [hn] at hr
    cases hr
  | computed hk => cases hk
  | stored _ hc _ hg _ hall =>
    have hfresh : ∀ edge ∈ res.edges this, edge ∉ g.store.edges := by
      intro edge hm hmem
      obtain ⟨hsource, hrelation⟩ := Resolution.of_mem_edges hm
      have hout : edge ∈ g.store.outgoing this (some .pointsTo) :=
        Store.mem_outgoing.mpr ⟨hmem, hrelation, hsource⟩
      simp [hn] at hout
    exact ⟨hc, hall hfresh ▸ hg⟩

/-- **Stored owners are read back.** In a tree, resolving an occurrence of `this` that has no owners
stored finds at least one and stores all that it finds. A new resolver over the graph that is left
reads the same attachments and events in the same order, and writes nothing. -/
theorem resolve_again {store : Store} (hf : store.AstForest) (he : store.hasNode this = true)
    (hn : store.outgoing this (some .pointsTo) = []) {after : Resolver}
    (h : resolve true ⟨store.service, []⟩ this = (.ok res, after)) :
    res.methods ≠ [] ∧ res.edges this ≠ [] ∧
    after.graph.store.outgoing this (some .pointsTo) = res.edges this ∧
    ∀ keep, resolve keep ⟨after.graph, []⟩ this =
      (.ok { res with cached := true }, ⟨after.graph, [(this, { res with cached := true })]⟩) := by
  have hsteps := (Sound.new true store.service).resolves (Service.writesAlike_service store) he
  rw [h] at hsteps
  obtain ⟨hres, hg⟩ : store.service.Resolved res ∧
      store.service.Grown after.graph (res.edges this) := by
    cases hsteps with
    | known hm => cases hm
    | found _ _ hfinds =>
      obtain ⟨hc, hg⟩ := hfinds.stores hn
      have hres := Service.resolved_of_computeOwners he hc
      exact ⟨hres, firsts_of_nodup (hres.nodup_edges hf this) ▸ hg⟩
  have hout : after.graph.store.outgoing this (some .pointsTo) = res.edges this := by
    have hmarked : (res.edges this).filter (fun e =>
        (some Relation.pointsTo).all (· == e.relation) && e.source == this) = res.edges this := by
      refine List.filter_eq_self.mpr fun edge hm => ?_
      simp [(hres.edges hm).1, (hres.edges hm).2.1]
    rw [hg.outgoing, hmarked]
    exact congrArg (· ++ res.edges this) hn
  have hread : after.graph.outgoing this (some .pointsTo) = .ok (res.edges this) := by
    rw [Service.outgoing, Service.ask, hg.outage, hout]
    rfl
  have hne := hres.methods_ne_nil
  exact ⟨hne, Resolution.edges_ne_nil hne this, hout,
    resolve_of_ofEdges? hread (hres.ofEdges?_edges this)⟩

end Resolver

/-- A page with the statements `function f() { this } a.x = f; f.call(b)`, where `f` also handles
an event of `a`. -/
def sharedPage : Store :=
  .ofLists
    [{ id := 1, type := .program }, { id := 2, type := .functionDeclaration },
     { id := 3, type := .identifier, code := "f" }, { id := 4, type := .blockStatement },
     { id := 5, type := .expressionStatement }, { id := 6, type := .thisExpression },
     { id := 7, type := .expressionStatement },
     { id := 8, type := .assignmentExpression, code := "=" },
     { id := 9, type := .memberExpression }, { id := 10, type := .identifier, code := "a" },
     { id := 11, type := .identifier, code := "x" }, { id := 12, type := .identifier, code := "f" },
     { id := 13, type := .expressionStatement }, { id := 14, type := .callExpression },
     { id := 15, type := .memberExpression }, { id := 16, type := .identifier, code := "f" },
     { id := 17, type := .identifier, code := "call" },
     { id := 18, type := .identifier, code := "b" }]
    [{ source := 1, target := 2, relation := .ast, relationType := "body" },
     { source := 2, target := 3, relation := .ast, relationType := "id" },
     { source := 2, target := 4, relation := .ast, relationType := "body" },
     { source := 4, target := 5, relation := .ast, relationType := "body" },
     { source := 5, target := 6, relation := .ast, relationType := "expression" },
     { source := 1, target := 7, relation := .ast, relationType := "body" },
     { source := 7, target := 8, relation := .ast, relationType := "expression" },
     { source := 8, target := 9, relation := .ast, relationType := "left" },
     { source := 9, target := 10, relation := .ast, relationType := "object" },
     { source := 9, target := 11, relation := .ast, relationType := "property" },
     { source := 8, target := 12, relation := .ast, relationType := "right" },
     { source := 1, target := 13, relation := .ast, relationType := "body" },
     { source := 13, target := 14, relation := .ast, relationType := "expression" },
     { source := 14, target := 15, relation := .ast, relationType := "callee" },
     { source := 15, target := 16, relation := .ast, relationType := "object" },
     { source := 15, target := 17, relation := .ast, relationType := "property" },
     { source := 14, target := 18, relation := .ast, relationType := "arguments" },
     { source := 13, target := 2, relation := .erdg, arguments := "click___10" }]

/-- Two attachments and an event of one of their owners are stored in five edges and read back. -/
theorem Resolver.resolve_again_sharedPage :
    sharedPage.AstForest ∧ sharedPage.outgoing 6 (some .pointsTo) = [] ∧
    ∃ after, Resolver.resolve true ⟨sharedPage.service, []⟩ 6 =
        (.ok { methods := [⟨8, .node 10⟩, ⟨14, .node 18⟩], events := [10] }, after) ∧
      after.graph.store.edgeCount = sharedPage.edgeCount + 5 ∧
      (Resolver.resolve true ⟨after.graph, []⟩ 6).1 =
        .ok { methods := [⟨8, .node 10⟩, ⟨14, .node 18⟩], events := [10], cached := true } ∧
      (Resolver.resolve true ⟨after.graph, []⟩ 6).2.graph = after.graph := by
  have hf : sharedPage.AstForest := by decide +kernel
  have hpage : sharedPage.hasNode 6 = true ∧ sharedPage.outgoing 6 (some .pointsTo) = [] := by
    decide +kernel
  have hrun : (Resolver.resolve true ⟨sharedPage.service, []⟩ 6).1 =
        .ok { methods := [⟨8, .node 10⟩, ⟨14, .node 18⟩], events := [10] } ∧
      (Resolver.resolve true ⟨sharedPage.service, []⟩ 6).2.graph.store.edgeCount =
        sharedPage.edgeCount + 5 := by decide +kernel
  generalize hfirst : Resolver.resolve true ⟨sharedPage.service, []⟩ 6 = first at hrun
  obtain ⟨outcome, after⟩ := first
  obtain ⟨rfl, hcount⟩ := hrun
  have hagain := (resolve_again hf hpage.1 hpage.2 hfirst).2.2.2 true
  exact ⟨hf, hpage.2, after, rfl, hcount, by rw [hagain], by rw [hagain]⟩

end RequestFlow

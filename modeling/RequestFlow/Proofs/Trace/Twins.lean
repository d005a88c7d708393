/-
Two traces side by side, on two graphs that answer alike. What they find is the
same as long as the occurrences of `this` have the same owners on both sides.
How either side comes to know the owners is left to a bridge between the two
resolvers: computed, read back from stored edges, or remembered.
-/
import RequestFlow.Proofs.Trace.Questions

namespace RequestFlow

variable {mode : Mode} {b b' : Service} {keep keep' : Bool} {K : Resolver → Resolver → Prop}

/-- What a resolution says, whether it was computed or read back. -/
def Resolution.owners (r : Resolution) : List Attachment × List NodeId := (r.methods, r.events)

/-- The owners exist. -/
structure OwnersHeld (g : Service) (owners : List Attachment × List NodeId) : Prop where
  methods : ∀ a ∈ owners.1, ∀ id, a.owner = .node id → g.store.hasNode id = true
  events : ∀ id ∈ owners.2, g.store.hasNode id = true

/-- A resolution and the resolver afterwards, without saying how it was found. -/
def Resolver.owners (keep : Bool) (r : Resolver) (this : NodeId) :
    Except GraphFault (List Attachment × List NodeId) × Resolver :=
  ((r.resolve keep this).1.map Resolution.owners, (r.resolve keep this).2)

/-- Resolvers over `b` and over `b'` that resolve alike and stay related by `K`. -/
structure Resolver.Bridge (mode : Mode) (keep keep' : Bool) (b b' : Service)
    (K : Resolver → Resolver → Prop) : Prop where
  left : ∀ {r r'}, K r r' → Service.Alike .same b r.graph
  right : ∀ {r r'}, K r r' → Service.Alike .same b' r'.graph
  owners : ∀ {r r' this}, K r r' → b.store.hasNode this = true →
    Ends mode K (fun owners => mode = .total → OwnersHeld b owners) (r.owners keep this)
      (r'.owners keep' this)

/-- Tracers over `b` and over `b'` with related resolvers. -/
structure Tracer.Aligned (b b' : Service) (K : Resolver → Resolver → Prop) (t t' : Tracer) :
    Prop where
  resolvers : K t.resolver t'.resolver
  left : t.Honest b
  right : t'.Honest b'

/-- Such tracers with the same time left. -/
structure Tracer.Abreast (b b' : Service) (K : Resolver → Resolver → Prop) (t t' : Tracer) : Prop
    extends Tracer.Aligned b b' K t t' where
  deadline : t.deadline = t'.deadline

/-- Tracers in the same place of the same query. -/
structure Tracer.Twins (b b' : Service) (K : Resolver → Resolver → Prop) (t t' : Tracer) : Prop
    extends Tracer.Abreast b b' K t t' where
  visited : t.visited = t'.visited
  truncation : t.truncation = t'.truncation
  slices : t.slices = t'.slices

/-- At the start of a query. -/
theorem Tracer.Aligned.twins {t t' : Tracer} (ht : t.Aligned b b' K t') (deadline : Deadline)
    (slices : SliceSet) : Twins b b' K (t.started deadline slices) (t'.started deadline slices) where
  resolvers := ht.resolvers
  left := ht.left.started deadline slices
  right := ht.right.started deadline slices
  visited := rfl
  deadline := rfl
  truncation := rfl
  slices := rfl

/-- After a reading of the clock. -/
theorem Tracer.Twins.tick {t t' : Tracer} (hT : Twins b b' K t t') : Twins b b' K t.tick t'.tick where
  resolvers := hT.resolvers
  left := hT.left.tick
  right := hT.right.tick
  visited := hT.visited
  deadline := congrArg Deadline.tick hT.deadline
  truncation := hT.truncation
  slices := hT.slices

/-- Where a request is about to be expanded. -/
theorem Tracer.Twins.visit {t t' : Tracer} (hT : Twins b b' K t t') (r : Request) :
    Twins b b' K (t.visit r) (t'.visit r) where
  resolvers := hT.resolvers
  left := hT.left.visit r
  right := hT.right.visit r
  visited := congrArg ((r.name, r.context.id) :: ·) hT.visited
  deadline := hT.deadline
  truncation := hT.truncation
  slices := hT.slices

theorem Tracer.Twins.withResolvers (hK : Resolver.Bridge mode keep keep' b b' K) {t t' : Tracer}
    (hT : Twins b b' K t t') {r r' : Resolver} (hk : K r r') :
    Twins b b' K { t with resolver := r } { t' with resolver := r' } where
  resolvers := hk
  left := ⟨hK.left hk, hT.left.sites, hT.left.targets⟩
  right := ⟨hK.right hk, hT.right.sites, hT.right.targets⟩
  visited := hT.visited
  deadline := hT.deadline
  truncation := hT.truncation
  slices := hT.slices

namespace Trace

/-- The setting, with or without writing owners into the graph. -/
def Setting.keeping (setting : Setting) (keep : Bool) : Setting :=
  { setting with options := { setting.options with materialise := keep } }

variable {α : Type} {P : α → Prop} {setting : Setting}

/-- Questions that agree, put by either trace. -/
theorem consult_sim {m n : Trace α} {x y : Except GraphFault α} (hm : Consults b m x)
    (hn : Consults b' n y) (h : Agree mode P x y) : Sim mode (Tracer.Twins b b' K) P m n := by
  intro t t' hT
  obtain ⟨t₁, h₁, hh₁, hs₁⟩ := hm t hT.left
  obtain ⟨t₂, h₂, hh₂, hs₂⟩ := hn t' hT.right
  have hT' : Tracer.Twins b b' K t₁ t₂ := {
    resolvers := by rw [hs₁.resolver, hs₂.resolver]; exact hT.resolvers
    left := hh₁
    right := hh₂
    visited := by rw [hs₁.visited, hs₂.visited]; exact hT.visited
    deadline := by rw [hs₁.deadline, hs₂.deadline]; exact hT.deadline
    truncation := by rw [hs₁.truncation, hs₂.truncation]; exact hT.truncation
    slices := by rw [hs₁.slices, hs₂.slices]; exact hT.slices }
  rw [h₁, h₂]
  cases h with
  | answer ha => exact .answer ha hT'
  | fault ht hs => exact .fault ht fun hm => ⟨hs hm, hT'⟩

section

variable (ab : Service.Alike mode b b') (hc : mode = .total → b.store.Closed)
include ab

theorem node_sim {id : NodeId} (he : mode = .total → b.store.hasNode id = true) :
    Sim mode (Tracer.Twins b b' K) b.store.Holds (ask (·.node id)) (ask (·.node id)) :=
  consult_sim (consults_ask fun a => (Service.node_agree a nofun).eq)
    (consults_ask fun a => (Service.node_agree a nofun).eq)
    ((Service.node_agree ab he).imp fun _ hn => Store.holds_of_node? hn)

theorem render_sim {node : Node} (hn : b.store.Holds node) :
    Sim mode (Tracer.Twins b b' K) (·.identifiers.Sound b) (ask (·.renderNode node))
      (ask (·.renderNode node)) :=
  consult_sim (consults_render hn) (consults_render (ab.holds hn))
    (Service.renderNode_agree ab hn false)

theorem statement_sim {id : NodeId} (he : mode = .total → b.store.hasNode id = true) :
    Sim mode (Tracer.Twins b b' K) b.store.Holds (ask (·.statement id)) (ask (·.statement id)) :=
  consult_sim (consults_ask fun a => (Service.statement_agree a nofun).eq)
    (consults_ask fun a => (Service.statement_agree a nofun).eq) (Service.statement_agree ab he)

omit ab in
theorem truncate_sim (reason : Truncation) :
    Sim mode (Tracer.Twins b b' K) (fun _ => True) (truncate reason) (truncate reason) := by
  refine .modify fun t t' h => ?_
  exact {
    resolvers := h.resolvers
    left := ⟨h.left.alike, h.left.sites, h.left.targets⟩
    right := ⟨h.right.alike, h.right.sites, h.right.targets⟩
    visited := h.visited
    deadline := h.deadline
    truncation := rfl
    slices := h.slices }

omit ab in
theorem emit_sim (slice : Slice) :
    Sim mode (Tracer.Twins b b' K) (fun _ => True) (emit (setting.keeping keep).options slice)
      (emit (setting.keeping keep').options slice) := by
  refine .modify fun t t' h => ?_
  exact {
    resolvers := h.resolvers
    left := ⟨h.left.alike, h.left.sites, h.left.targets⟩
    right := ⟨h.right.alike, h.right.sites, h.right.targets⟩
    visited := h.visited
    deadline := h.deadline
    truncation := h.truncation
    slices := by rw [h.slices]; rfl }

omit ab in
theorem expired_sim : Sim mode (Tracer.Twins b b' K) (fun _ => True) expired expired := by
  intro t t' hT
  change Ends mode _ _ (.ok t.deadline.hasPassed, t.tick) (.ok t'.deadline.hasPassed, t'.tick)
  rw [← hT.deadline]
  exact .answer trivial hT.tick

theorem emitMarked_sim (scope mark : String) {origin : Node} (ho : b.store.Holds origin) :
    Sim mode (Tracer.Twins b b' K) (fun _ => True)
      (emitMarked (setting.keeping keep) scope mark origin)
      (emitMarked (setting.keeping keep') scope mark origin) :=
  (render_sim ab ho).bind fun _ _ => emit_sim _

end

/-! ## Occurrences of `this` -/

/-- The owners of an occurrence of `this`, without saying how they were found. -/
def owners (options : TraceOptions) (this : NodeId) : Trace (List Attachment × List NodeId) := do
  return (← resolve options this).owners

theorem run_owners (options : TraceOptions) (this : NodeId) (t : Tracer) :
    (owners options this).run.run t = ((t.resolver.owners options.materialise this).1,
      { t with resolver := (t.resolver.owners options.materialise this).2 }) := by
  unfold owners Resolver.owners
  rw [run_bind, run_resolve]
  cases (t.resolver.resolve options.materialise this).1 <;> rfl

theorem owners_sim (hK : Resolver.Bridge mode keep keep' b b' K) {this : NodeId}
    (he : b.store.hasNode this = true) :
    Sim mode (Tracer.Twins b b' K) (fun owners => mode = .total → OwnersHeld b owners)
      (owners (setting.keeping keep).options this) (owners (setting.keeping keep').options this) := by
  intro t t' hT
  rw [run_owners, run_owners]
  have hends := hK.owners hT.resolvers he
  change Ends mode _ _ ((t.resolver.owners keep this).1,
      { t with resolver := (t.resolver.owners keep this).2 })
    ((t'.resolver.owners keep' this).1, { t' with resolver := (t'.resolver.owners keep' this).2 })
  generalize t.resolver.owners keep this = x at hends
  generalize t'.resolver.owners keep' this = y at hends
  cases hends with
  | answer ha hk => exact .answer ha (hT.withResolvers hK hk)
  | fault ht hs => exact .fault ht fun hm => ⟨(hs hm).1, hT.withResolvers hK (hs hm).2⟩

theorem thisOccurrence_eq (setting : Setting) (descend : Request → Trace Unit) (this : NodeId)
    (context : Node) (scope : String) (depth : Nat) :
    thisOccurrence setting descend this context scope depth = (do
      let found ← owners setting.options this
      let node ← ask (·.node this)
      found.1.forM fun method => ownerStep setting descend node scope depth method.owner
      found.2.forM fun event => do
        emitMarked setting scope ("this " ++ Slice.pointsToMark) (← ask (·.node event))
      descend { name := thisVariable, context, scope, depth := depth + 1 }) := by
  simp only [thisOccurrence, owners, bind_assoc, pure_bind]
  rfl

section

variable (ab : Service.Alike mode b b') (hc : mode = .total → b.store.Closed)
  (hK : Resolver.Bridge mode keep keep' b b' K) {descend descend' : Request → Trace Unit}
  (hd : ∀ r : Request, b.store.Holds r.context →
    Sim mode (Tracer.Twins b b' K) (fun _ => True) (descend r) (descend' r))
include ab hc hd

omit hc in
theorem ownerStep_sim (this : Node) (scope : String) (depth : Nat) {owner : Owner}
    (ho : mode = .total → ∀ id, owner = .node id → b.store.hasNode id = true) :
    Sim mode (Tracer.Twins b b' K) (fun _ => True)
      (ownerStep (setting.keeping keep) descend this scope depth owner)
      (ownerStep (setting.keeping keep') descend' this scope depth owner) := by
  cases owner with
  | window => exact emit_sim _
  | node id =>
    refine (node_sim ab fun ht => ho ht id rfl).bind fun node hn => ?_
    refine (emitMarked_sim ab scope _ hn).bind fun _ _ => ?_
    change Sim mode _ _ (if node.type = .identifier ∧ !setting.builtins.contains node.code then _ else _)
      (if node.type = .identifier ∧ !setting.builtins.contains node.code then _ else _)
    split
    · exact (statement_sim ab fun _ => hn.hasNode).bind fun context hcontext => hd _ hcontext
    · exact .pure trivial

include hK in
omit hc in
theorem thisOccurrence_sim {this : NodeId} (he : b.store.hasNode this = true) {context : Node}
    (hx : b.store.Holds context) (scope : String) (depth : Nat) :
    Sim mode (Tracer.Twins b b' K) (fun _ => True)
      (thisOccurrence (setting.keeping keep) descend this context scope depth)
      (thisOccurrence (setting.keeping keep') descend' this context scope depth) := by
  rw [thisOccurrence_eq, thisOccurrence_eq]
  refine (owners_sim hK he).bind fun found hfound => ?_
  refine (node_sim ab fun _ => he).bind fun node hn => ?_
  have hmethods : Sim mode (Tracer.Twins b b' K) (fun _ => True)
      (found.1.forM fun method =>
        ownerStep (setting.keeping keep) descend node scope depth method.owner)
      (found.1.forM fun method =>
        ownerStep (setting.keeping keep') descend' node scope depth method.owner) :=
    .forM fun method hm => ownerStep_sim ab hd node scope depth
      fun ht => (hfound ht).methods method hm
  refine hmethods.bind fun _ _ => ?_
  have hevents : Sim mode (Tracer.Twins b b' K) (fun _ => True)
      (found.2.forM fun event => do
        emitMarked (setting.keeping keep) scope ("this " ++ Slice.pointsToMark)
          (← ask (·.node event)))
      (found.2.forM fun event => do
        emitMarked (setting.keeping keep') scope ("this " ++ Slice.pointsToMark)
          (← ask (·.node event))) :=
    .forM fun event hm => (node_sim ab fun ht => (hfound ht).events event hm).bind
      fun _ ho => emitMarked_sim ab scope _ ho
  exact hevents.bind fun _ _ => hd _ hx

/-! ## The steps of the trace -/

include hK

omit hc in
theorem argumentStep_sim {argument : Argument} (ha : argument.identifiers.Sound b) {statement : Node}
    (hs : b.store.Holds statement) (scope : String) (depth : Nat) :
    Sim mode (Tracer.Twins b b' K) (fun _ => True)
      (argumentStep (setting.keeping keep) descend argument statement scope depth)
      (argumentStep (setting.keeping keep') descend' argument statement scope depth) := by
  unfold argumentStep
  split
  · exact .pure trivial
  refine .forM fun entry hm => ?_
  change Sim mode _ _
    (if entry.1 = thisIdentifier then _ else if setting.builtins.contains entry.1 then _ else _)
    (if entry.1 = thisIdentifier then _ else if setting.builtins.contains entry.1 then _ else _)
  split
  · exact thisOccurrence_sim ab hK hd (ha entry hm).hasNode hs scope depth
  split
  · exact .pure trivial
  · exact hd _ hs

omit hc hK hd in
theorem passedOn_sim (name : String) (function : Node) (site : CallSite) (argument : Argument) :
    Sim mode (Tracer.Twins b b' K) (fun _ => True) (passedOn name function site argument)
      (passedOn name function site argument) := by
  unfold passedOn
  split
  · exact consult_sim (consults_ask fun a => (Service.isBelow_agree a _ _).eq)
      (consults_ask fun a => (Service.isBelow_agree a _ _).eq) (Service.isBelow_agree ab _ _)
  · exact .pure trivial

omit hc in
theorem siteStep_sim (r : Request) (function : Node) {site : CallSite} (hs : site.Sound b) :
    Sim mode (Tracer.Twins b b' K) (fun _ => True)
      (siteStep (setting.keeping keep) descend r function site)
      (siteStep (setting.keeping keep') descend' r function site) := by
  unfold siteStep bindingStep
  split
  · exact .pure trivial
  next argument ha =>
  refine (emit_sim _).bind fun _ _ => ?_
  refine (passedOn_sim ab r.name function site argument).bind fun passed _ => ?_
  split
  · exact .pure trivial
  · exact (statement_sim ab fun _ => hs.call).bind fun statement hst =>
      argumentStep_sim ab hK hd (hs.get? ha) hst _ _

omit hK hd in
theorem parameterStep_sim {step step' : CallSite → Trace Unit}
    (hstep : ∀ site : CallSite, site.Sound b →
      Sim mode (Tracer.Twins b b' K) (fun _ => True) (step site) (step' site))
    (r : Request) (producer function : Node) :
    Sim mode (Tracer.Twins b b' K) (fun _ => True)
      (parameterStep (setting.keeping keep) step r producer function)
      (parameterStep (setting.keeping keep') step' r producer function) := by
  unfold parameterStep
  refine Sim.bind (P := fun _ => True) ?_ fun params _ => ?_
  · exact consult_sim (consults_ask fun a => (Service.parameters_agree a _).eq)
      (consults_ask fun a => (Service.parameters_agree a _).eq) (Service.parameters_agree ab _)
  split
  · refine (emit_sim _).bind fun _ _ => ?_
    refine (consult_sim (consults_callSites function.id) (consults_callSites function.id)
      (Service.callSites_agree ab hc function.id)).bind fun sites hs => ?_
    exact .forM fun site hm => hstep site (hs site hm)
  · exact .pure trivial

theorem mentionStep_sim (r : Request) {producer : Node} (hp : b.store.Holds producer)
    {mention : String × NodeId} (hm : b.Mentions mention) :
    Sim mode (Tracer.Twins b b' K) (fun _ => True)
      (mentionStep (setting.keeping keep) descend r producer mention.1 mention.2)
      (mentionStep (setting.keeping keep') descend' r producer mention.1 mention.2) := by
  unfold mentionStep
  split
  · exact .pure trivial
  split
  · exact thisOccurrence_sim ab hK hd hm.hasNode hp r.scope r.depth
  change Sim mode _ _ (if setting.builtins.contains mention.1 then _ else _)
    (if setting.builtins.contains mention.1 then _ else _)
  split
  · exact .pure trivial
  refine (consult_sim (consults_calledDefinition? mention.2) (consults_calledDefinition? mention.2)
    (Service.calledDefinition?_agree ab hc mention.2)).bind fun definition hdef => ?_
  split
  · exact emitMarked_sim ab r.scope _ (hdef _ rfl)
  · exact hd _ hp

theorem statementStep_sim (r : Request) {producer : Node} (hp : b.store.Holds producer) :
    Sim mode (Tracer.Twins b b' K) (fun _ => True)
      (statementStep (setting.keeping keep) descend r producer)
      (statementStep (setting.keeping keep') descend' r producer) := by
  unfold statementStep
  refine (render_sim ab hp).bind fun rendered hs => ?_
  refine (emit_sim _).bind fun _ _ => ?_
  exact .forM fun mention hm => mentionStep_sim ab hc hK hd r hp (hs mention hm)

theorem producerStep_sim (r : Request) {producer : Node} (hp : b.store.Holds producer) :
    Sim mode (Tracer.Twins b b' K) (fun _ => True)
      (producerStep (setting.keeping keep) descend (siteStep (setting.keeping keep) descend r) r
        producer)
      (producerStep (setting.keeping keep') descend' (siteStep (setting.keeping keep') descend' r) r
        producer) := by
  unfold producerStep
  split
  · exact .pure trivial
  refine (consult_sim (consults_ask fun a => (Service.parameterOwner?_agree a hp).eq)
    (consults_ask fun a => (Service.parameterOwner?_agree a (ab.holds hp)).eq)
    (Service.parameterOwner?_agree ab hp)).bind fun owner _ => ?_
  split
  · exact parameterStep_sim ab hc (fun site hs => siteStep_sim ab hK hd r _ hs) r producer _
  · exact statementStep_sim ab hc hK hd r hp

omit hK hd in
theorem expand_sim {step step' : Node → Trace Unit}
    (hstep : ∀ producer, b.store.Holds producer →
      Sim mode (Tracer.Twins b b' K) (fun _ => True) (step producer) (step' producer))
    (r : Request) :
    Sim mode (Tracer.Twins b b' K) (fun _ => True) (expand step r) (expand step' r) := by
  refine expired_sim.bind fun passed _ => ?_
  split
  · exact truncate_sim .deadline
  refine Sim.get_bind fun t t' hT => ?_
  rw [← hT.visited]
  split
  · exact .answer trivial hT
  refine Sim.bind (P := fun _ => True) (.modify fun t t' h => h.visit r) (fun _ _ => ?_) t t' hT
  refine (consult_sim (consults_ask fun a => (Service.producers_agree a nofun _ _ _).eq)
    (consults_ask fun a => (Service.producers_agree a nofun _ _ _).eq)
    (Service.producers_agree ab hc _ _ _)).bind fun producers hp => ?_
  exact .forM fun producer hm => hstep producer (hp producer hm)

end

section

variable (ab : Service.Alike mode b b') (hc : mode = .total → b.store.Closed)
  (hK : Resolver.Bridge mode keep keep' b b' K)
include ab hc hK

theorem follow_sim (levels : Nat) (r : Request) :
    Sim mode (Tracer.Twins b b' K) (fun _ => True) (follow (setting.keeping keep) levels r)
      (follow (setting.keeping keep') levels r) := by
  induction levels generalizing r with
  | zero => exact truncate_sim .depth
  | succ levels ih =>
    exact expand_sim ab hc (fun _ hp => producerStep_sim ab hc hK (fun r _ => ih r) r hp) r

end

end Trace

/-- What a query names exists: the statement, as far as needed, and the occurrence of `this`. -/
structure Tracer.Target.Held (mode : Mode) (g : Service) (target : Tracer.Target)
    (context : NodeId) : Prop where
  context : mode = .total → g.store.hasNode context = true
  this : ∀ id, target = .this id → g.store.hasNode id = true

/-- Queries on tracers over graphs that answer alike end alike. -/
theorem Tracer.query_ends (ab : Service.Alike mode b b') (hc : mode = .total → b.store.Closed)
    (hK : Resolver.Bridge mode keep keep' b b' K) {t t' : Tracer} (ht : Aligned b b' K t t')
    (setting : Trace.Setting) {target : Target} {context : NodeId} (he : target.Held mode b context)
    (slices : SliceSet) :
    Ends mode (Twins b b' K) (fun _ => True)
      (t.query (setting.keeping keep) target context slices)
      (t'.query (setting.keeping keep') target context slices) := by
  refine (Trace.node_sim ab he.context).bind (fun node hn => ?_) _ _
    (ht.twins setting.options.deadline slices)
  cases target with
  | name name => exact Trace.follow_sim ab hc hK _ _
  | this id =>
    exact Trace.thisOccurrence_sim ab hK (fun r _ => Trace.follow_sim ab hc hK _ r)
      (he.this id rfl) hn "" 0

end RequestFlow

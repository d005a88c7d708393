/-
What stays true of a tracer from step to step. A step puts questions, looks up
notes, resolves occurrences of `this`, shows slices and descends. The slices it
shows are of nodes of the graph, and it descends with names that identifiers
bear, or with `this`, to nodes of the graph. So a property of tracers that notes
and owners leave alone, and that slices of existing nodes keep, is kept by every
step that descends to steps that keep it.
-/
import RequestFlow.Proofs.Footprint
import RequestFlow.Proofs.Trace.Exact

namespace RequestFlow

/-- What a trace asks for: a name that some identifier bears, or what flows in as `this`, at a node
of the graph. -/
structure Service.Asks (g : Service) (depth : Nat) (r : Request) : Prop where
  name : r.name = thisVariable ∨
    ∃ node, g.store.Holds node ∧ node.type = .identifier ∧ node.code = r.name
  context : g.store.Holds r.context
  depth : r.depth = depth

/-- A name that is mentioned, other than `this`, is that of an identifier. -/
theorem Service.Mentions.identifier {g : Service} {entry : String × NodeId} (h : g.Mentions entry)
    (hne : entry.1 ≠ thisIdentifier) :
    ∃ node, g.store.Holds node ∧ node.type = .identifier ∧ node.code = entry.1 := by
  obtain ⟨node, hn, h | h⟩ := h
  · exact ⟨node, Store.holds_of_node? hn, h.1, h.2⟩
  · exact absurd h.2 hne

/-- The slice is one of a node of the store, and is where the node is. -/
def Slice.IsOf (store : Store) (slice : Slice) : Prop :=
  ∃ node, store.Holds node ∧ slice.node = some node.id ∧ slice.location = node.location

theorem Slice.isOf_bare {store : Store} {origin : Node} (ho : store.Holds origin) (code : String) :
    (Slice.bare code origin).IsOf store := ⟨origin, ho, rfl, rfl⟩

theorem Slice.isOf_ofRendered {store : Store} {origin : Node} (ho : store.Holds origin)
    (code : String) (rendered : Rendered) : (Slice.ofRendered code rendered origin).IsOf store :=
  ⟨origin, ho, rfl, rfl⟩

namespace Trace

variable {α : Type} {g : Service} {setting : Setting} {J : Tracer → Prop} {P : α → Prop}

/-- A property of tracers that has nothing to do with notes and owners, and that slices of nodes of
`g` keep. -/
structure Steady (g : Service) (J : Tracer → Prop) : Prop where
  sites : ∀ {t : Tracer}, J t → ∀ sites, J { t with sites }
  targets : ∀ {t : Tracer}, J t → ∀ targets, J { t with targets }
  resolver : ∀ {t : Tracer}, J t → ∀ resolver, J { t with resolver }
  push : ∀ {t : Tracer}, J t → ∀ {slice : Slice}, slice.IsOf g.store →
    J { t with slices := t.slices.push slice }

/-- Run on a tracer for `g` of which `J` holds, the step leaves such a tracer, however it ends, and
its answer satisfies `P`. -/
abbrev Keeps (g : Service) (J : Tracer → Prop) (P : α → Prop) (m : Trace α) : Prop :=
  Sim .same (fun t t' => t = t' ∧ t.Honest g ∧ J t) P m m

/-! ## What the steps are made of -/

theorem ask_keeps {question : Service → Except GraphFault α}
    (hq : ∀ {h}, Service.Alike .same g h → Agree .same P (question g) (question h)) :
    Keeps g J P (ask question) := by
  rintro t _ ⟨rfl, ht, hj⟩
  rw [run_ask]
  have hagree := hq ht.alike
  rw [hagree.eq] at hagree
  generalize question t.graph = answer at hagree
  cases hagree with
  | answer ha => exact .answer ha ⟨rfl, ht, hj⟩
  | fault hm _ => exact .fault hm fun _ => ⟨rfl, rfl, ht, hj⟩

/-- Answers from a table of true answers. -/
theorem remembered_keeps {table : Tracer → List (NodeId × α)}
    {note : List (NodeId × α) → Tracer → Tracer} {question : Service → NodeId → Except GraphFault α}
    {id : NodeId} (hc : Consults g (remembered table note question id) (question g id))
    (hn : ∀ {t}, J t → ∀ entries, J (note entries t)) (hq : ∀ a, question g id = .ok a → P a) :
    Keeps g J P (remembered table note question id) := by
  rintro t _ ⟨rfl, ht, hj⟩
  have hj' : J ((remembered table note question id).run.run t).2 := by
    rw [run_remembered]
    split
    · exact hj
    · split
      · exact hn hj _
      · exact hj
  obtain ⟨t', hrun, ht', -⟩ := hc t ht
  rw [hrun] at hj' ⊢
  cases hx : question g id with
  | ok a => exact .answer (hq a hx) ⟨rfl, ht', hj'⟩
  | error fault => exact .fault (by decide) fun _ => ⟨rfl, rfl, ht', hj'⟩

theorem node_keeps (id : NodeId) : Keeps g J g.store.Holds (ask (·.node id)) :=
  ask_keeps fun a => (Service.node_agree a nofun).imp fun _ hn => Store.holds_of_node? hn

variable (hJ : Steady g J)
include hJ

theorem callSites_keeps (function : NodeId) :
    Keeps g J (fun sites => ∀ site ∈ sites, site.Sound g) (callSites function) :=
  remembered_keeps (consults_callSites function) hJ.sites fun _ h =>
    ((Service.callSites_agree (.self g) nofun function).of_ok h).2

theorem calledDefinition?_keeps (origin : NodeId) :
    Keeps g J (fun r => ∀ definition ∈ r, g.store.Holds definition) (calledDefinition? origin) := by
  refine (ask_keeps fun a => Service.invocation?_agree a origin).bind fun invocation _ => ?_
  cases invocation with
  | none => exact .pure (by simp)
  | some call =>
    refine Sim.bind (remembered_keeps (P := fun _ => True) (consults_callTarget? call)
      hJ.targets fun _ _ => trivial) fun target _ => ?_
    cases target with
    | none => exact .pure (by simp)
    | some target => exact (node_keeps target).bind fun _ hd => .pure (by simpa using hd)

theorem emit_keeps {slice : Slice} (hs : slice.IsOf g.store) :
    Keeps g J (fun _ => True) (emit setting.options slice) := by
  -- Layout changes the code alone.
  have hlaid : (if setting.options.layout then
      { slice with code := Layout.formatSlice slice.code } else slice).IsOf g.store := by
    split
    · exact hs
    · exact hs
  rintro t _ ⟨rfl, ht, hj⟩
  exact .answer trivial ⟨rfl, ⟨ht.alike, ht.sites, ht.targets⟩, hJ.push hj hlaid⟩

theorem resolve_keeps (this : NodeId) :
    Keeps g J (fun _ => True) (resolve setting.options this) := by
  rintro t _ ⟨rfl, ht, hj⟩
  rw [run_resolve]
  have hh := ht.resolved setting.options.materialise this
  have hj' := hJ.resolver hj (t.resolver.resolve setting.options.materialise this).2
  cases (t.resolver.resolve setting.options.materialise this).1 with
  | ok res => exact .answer trivial ⟨rfl, hh, hj'⟩
  | error fault => exact .fault (by decide) fun _ => ⟨rfl, rfl, hh, hj'⟩

theorem emitMarked_keeps (scope mark : String) {origin : Node} (ho : g.store.Holds origin) :
    Keeps g J (fun _ => True) (emitMarked setting scope mark origin) :=
  (ask_keeps fun a => Service.renderNode_agree a ho false).bind fun _ _ =>
    emit_keeps hJ (Slice.isOf_ofRendered ho _ _)

/-! ## The steps of the trace -/

section

variable {descend : Request → Trace Unit} {depth : Nat}
  (hd : ∀ q, g.Asks (depth + 1) q → Keeps g J (fun _ => True) (descend q))
include hd

theorem ownerStep_keeps {this : Node} (ht : g.store.Holds this) (scope : String) (owner : Owner) :
    Keeps g J (fun _ => True) (ownerStep setting descend this scope depth owner) := by
  cases owner with
  | window => exact emit_keeps hJ (Slice.isOf_bare ht _)
  | node id =>
    refine (node_keeps id).bind fun owner ho => ?_
    refine (emitMarked_keeps hJ scope _ ho).bind fun _ _ => ?_
    split
    · next hid =>
      refine (ask_keeps fun a => Service.statement_agree a nofun).bind fun context hc => ?_
      exact hd _ ⟨.inr ⟨owner, ho, hid.1, rfl⟩, hc, rfl⟩
    · exact .pure trivial

theorem thisOccurrence_keeps (this : NodeId) {context : Node} (hc : g.store.Holds context)
    (scope : String) :
    Keeps g J (fun _ => True) (thisOccurrence setting descend this context scope depth) := by
  refine (resolve_keeps hJ this).bind fun resolution _ => (node_keeps this).bind fun node hn => ?_
  refine Sim.bind (Sim.forM fun method _ => ownerStep_keeps hJ hd hn scope method.owner)
    fun _ _ => ?_
  refine Sim.bind (Sim.forM fun event _ => ?_) fun _ _ => hd _ ⟨.inl rfl, hc, rfl⟩
  exact (node_keeps event).bind fun owner ho => emitMarked_keeps hJ scope _ ho

theorem argumentStep_keeps {argument : Argument} (ha : argument.identifiers.Sound g)
    {statement : Node} (hs : g.store.Holds statement) (scope : String) :
    Keeps g J (fun _ => True) (argumentStep setting descend argument statement scope depth) := by
  unfold argumentStep
  split
  · exact .pure trivial
  refine Sim.forM fun entry hm => ?_
  dsimp only
  split
  · exact thisOccurrence_keeps hJ hd entry.2 hs scope
  next hne =>
  split
  · exact .pure trivial
  · exact hd _ ⟨.inr ((ha entry hm).identifier hne), hs, rfl⟩

theorem bindingStep_keeps {skip : Argument → Trace Bool}
    (hskip : ∀ argument, Keeps g J (fun _ => True) (skip argument)) (name : String) {site : CallSite}
    (hs : site.Sound g) :
    Keeps g J (fun _ => True) (bindingStep setting descend skip name depth site) := by
  unfold bindingStep
  split
  · exact .pure trivial
  next argument ha =>
  obtain ⟨call, hcall, hid, hloc⟩ := hs.place
  refine (emit_keeps hJ ⟨call, hcall, congrArg some hid, hloc⟩).bind fun _ _ => ?_
  refine (hskip argument).bind fun skipped _ => ?_
  split
  · exact .pure trivial
  · exact (ask_keeps fun a => Service.statement_agree a nofun).bind fun statement hst =>
      argumentStep_keeps hJ hd (hs.get? ha) hst _

end

section

variable {descend : Request → Trace Unit} {r : Request}
  (hd : ∀ q, g.Asks (r.depth + 1) q → Keeps g J (fun _ => True) (descend q))
include hd

theorem siteStep_keeps (function : Node) {site : CallSite} (hs : site.Sound g) :
    Keeps g J (fun _ => True) (siteStep setting descend r function site) := by
  refine bindingStep_keeps hJ hd (fun argument => ?_) r.name hs
  unfold passedOn
  split
  · exact ask_keeps fun a => Service.isBelow_agree a _ _
  · exact .pure trivial

omit hd in
theorem parameterStep_keeps {step : CallSite → Trace Unit}
    (hstep : ∀ site : CallSite, site.Sound g → Keeps g J (fun _ => True) (step site))
    {producer : Node} (hp : g.store.Holds producer) (function : Node) :
    Keeps g J (fun _ => True) (parameterStep setting step r producer function) := by
  refine (ask_keeps fun a => Service.parameters_agree a _).bind fun params _ => ?_
  split
  · refine (emit_keeps hJ (Slice.isOf_bare hp _)).bind fun _ _ => ?_
    exact (callSites_keeps hJ function.id).bind fun sites hs => .forM fun site hm =>
      hstep site (hs site hm)
  · exact .pure trivial

theorem mentionStep_keeps {producer : Node} (hp : g.store.Holds producer) {mention : String × NodeId}
    (hm : g.Mentions mention) :
    Keeps g J (fun _ => True) (mentionStep setting descend r producer mention.1 mention.2) := by
  unfold mentionStep
  split
  · exact .pure trivial
  split
  · exact thisOccurrence_keeps hJ hd mention.2 hp r.scope
  next hne =>
  split
  · exact .pure trivial
  refine (calledDefinition?_keeps hJ mention.2).bind fun called hcalled => ?_
  cases called with
  | some definition => exact emitMarked_keeps hJ r.scope _ (hcalled definition rfl)
  | none => exact hd _ ⟨.inr (hm.identifier hne), hp, rfl⟩

theorem producerStep_keeps {producer : Node} (hp : g.store.Holds producer) :
    Keeps g J (fun _ => True)
      (producerStep setting descend (siteStep setting descend r) r producer) := by
  unfold producerStep
  split
  · exact .pure trivial
  refine (ask_keeps fun a => Service.parameterOwner?_agree a hp).bind fun owner _ => ?_
  cases owner with
  | some function =>
    exact parameterStep_keeps hJ (fun _ hs => siteStep_keeps hJ hd function hs) hp function
  | none =>
    refine (ask_keeps fun a => Service.renderNode_agree a hp false).bind fun rendered hs => ?_
    refine (emit_keeps hJ (Slice.isOf_ofRendered hp _ _)).bind fun _ _ => .forM fun mention hm => ?_
    exact mentionStep_keeps hJ hd hp (hs mention hm)

theorem expansion_keeps : Keeps g J (fun _ => True)
    (expansion (producerStep setting descend (siteStep setting descend r) r) r) := by
  refine (ask_keeps fun a => Service.producers_agree a nofun _ _ _).bind fun producers hh => ?_
  exact .forM fun producer hm => producerStep_keeps hJ hd (hh producer hm)

end

end Trace

end RequestFlow

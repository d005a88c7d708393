/-
What becomes of the occurrences of names in a statement that a trace processes.
The statement is gone through name by name, each with its last occurrence: for
`this` the owners of that occurrence are shown, and for the callee of a call the
definition that the call leads to. An occurrence that another one of its name
follows is never looked at.

`queryTo` is the query stopped where it comes to a producer for a name, so it says
whether the query processes that producer.
-/
import RequestFlow.Proofs.Syntax.Occurrences
import RequestFlow.Proofs.Trace.Restricted

namespace RequestFlow

/-! ## What is shown -/

namespace Service

variable {g : Service} {t t' : Tracer} {options : TraceOptions}

/-- The code of a node is shown behind a mark. -/
def MarkShown (g : Service) (options : TraceOptions) (mark : String) (id : NodeId) (t : Tracer) :
    Prop :=
  ∃ node rendered, g.store.node? id = some node ∧ g.renderNode node = .ok rendered ∧
    (Lead.text (mark ++ " " ++ rendered.code) node.location).Met options t

/-- An owner of an occurrence of `this` is shown. -/
def OwnerShown (g : Service) (options : TraceOptions) (this : NodeId) (t : Tracer) : Owner → Prop
  | .window => ∃ node, g.store.node? this = some node ∧
    (Lead.text ("this " ++ Slice.pointsToMark ++ " window") node.location).Met options t
  | .node id => g.MarkShown options ("this " ++ Slice.pointsToMark) id t

/-- An occurrence of `this` is resolved, and all that it belongs to is shown. -/
structure ThisShown (g : Service) (options : TraceOptions) (this : NodeId) (res : Resolution)
    (t : Tracer) : Prop where
  owned : g.owned options.materialise this = .ok res
  methods : ∀ method ∈ res.methods, g.OwnerShown options this t method.owner
  events : ∀ id ∈ res.events, g.MarkShown options ("this " ++ Slice.pointsToMark) id t

/-- What an occurrence of a name asks for is shown: the owners of `this`, and the definition of
what is called, unless the name is taken for granted. -/
def OccurrenceShown (g : Service) (setting : Trace.Setting) (entry : String × NodeId) (t : Tracer) :
    Prop :=
  if entry.1 = thisIdentifier then ∃ res, g.ThisShown setting.options entry.2 res t
  else setting.builtins.contains entry.1 = false → ∀ definition, g.Calls entry.2 definition →
    g.MarkShown setting.options Slice.definitionMark definition.id t

/-- The statement gives its own slice and the names it mentions, rather than standing for the
parameters of a function or for the page. -/
structure Ordinary (g : Service) (producer : Node) : Prop where
  held : g.store.Holds producer
  type_ne : producer.type ≠ .program
  not_standsFor : ∀ function, ¬ g.StandsFor producer function

theorem Ordinary.of_type {producer : Node} (hh : g.store.Holds producer)
    (hp : producer.type ≠ .program) (hf : producer.type.isFunction = false)
    (hb : producer.type ≠ .blockStatement) : g.Ordinary producer := by
  refine ⟨hh, hp, ?_⟩
  rintro function (hf' | hb')
  · rw [hf] at hf'
    cases hf'
  · exact hb hb'

/-- The last occurrences of the names in a statement are shown, but for the name that the statement
is processed for. -/
def LastShown (g : Service) (setting : Trace.Setting) (name : String) (producer : Node)
    (t : Tracer) : Prop :=
  ∀ other origin, other ≠ name → (g.occurrences producer).reverse.lookup other = some origin →
    g.OccurrenceShown setting (other, origin) t

theorem MarkShown.mono {mark : String} {id : NodeId} (h : g.MarkShown options mark id t)
    (hg : t.Grows t') : g.MarkShown options mark id t' := by
  obtain ⟨node, rendered, hn, hr, hmet⟩ := h
  exact ⟨node, rendered, hn, hr, hg.met hmet⟩

theorem OwnerShown.mono {this : NodeId} {owner : Owner} (h : g.OwnerShown options this t owner)
    (hg : t.Grows t') : g.OwnerShown options this t' owner := by
  cases owner with
  | window =>
    obtain ⟨node, hn, hmet⟩ := h
    exact ⟨node, hn, hg.met hmet⟩
  | node id => exact MarkShown.mono h hg

theorem OccurrenceShown.mono {setting : Trace.Setting} {entry : String × NodeId}
    (h : g.OccurrenceShown setting entry t) (hg : t.Grows t') :
    g.OccurrenceShown setting entry t' := by
  unfold OccurrenceShown at h ⊢
  split
  · next hthis =>
    rw [if_pos hthis] at h
    obtain ⟨res, howned, hmethods, hevents⟩ := h
    exact ⟨res, howned, fun m hm => (hmethods m hm).mono hg, fun id hm => (hevents id hm).mono hg⟩
  · next hthis =>
    rw [if_neg hthis] at h
    exact fun hb definition hc => (h hb definition hc).mono hg

theorem LastShown.mono {setting : Trace.Setting} {name : String} {producer : Node}
    (h : g.LastShown setting name producer t) (hg : t.Grows t') :
    g.LastShown setting name producer t' :=
  fun other origin hne hlast => (h other origin hne hlast).mono hg

end Service

/-- On a healthy graph whatever a resolver answers is what the graph had at first. -/
theorem Resolver.Sound.resolve_service {keep : Bool} {store : Store} {r : Resolver}
    (hs : r.Sound keep store.service) (this : NodeId) :
    (r.resolve keep this).2.Sound keep store.service ∧
      ∀ res, (r.resolve keep this).1 = .ok res → store.service.owned keep this = .ok res := by
  cases he : store.hasNode this with
  | true =>
    obtain ⟨hout, hnext⟩ := hs.resolve (Service.writesAlike_service store) he
    exact ⟨hnext, fun res h => hout ▸ h⟩
  | false =>
    obtain ⟨hout, hnext⟩ := hs.resolve_of_missing (fun _ => rfl) he
    refine ⟨hnext, fun res h => ?_⟩
    rw [h] at hout
    exact (hout.resolve_right nofun).symm

/-! ## Traces up to a producer -/

namespace Trace

/-- Traces a request, up to where the producer is first processed for the name. -/
def followTo (setting : Setting) (name : String) (producer : Node) :
    (levels : Nat) → Request → Trace Unit
  | 0, _ => truncate .depth
  | levels + 1, r =>
    let descend := followTo setting name producer levels
    expand (fun node =>
      if r.name = name ∧ node = producer then throw stopped
      else producerStep setting descend (siteStep setting descend r) r node) r

end Trace

/-- A query, up to where the producer is first processed for the name. -/
def Tracer.queryTo (setting : Trace.Setting) (name : String) (producer : Node) (t : Tracer)
    (target : Tracer.Target) (context : NodeId) (slices : SliceSet := {}) :
    Except GraphFault Unit × Tracer :=
  (Trace.answering setting (Trace.followTo setting name producer) target context).run.run
    (t.started setting.options.deadline slices)

namespace Trace

variable {store : Store} {setting : Setting} {name : String} {producer : Node} {t t' : Tracer}
  {α β : Type}

/-- From `t`, the trace `m` loses nothing, and `n` does the same, or is stopped at a producer that
`m` goes on to process. -/
structure AttendsFrom (store : Store) (setting : Setting) (name : String) (producer : Node)
    (m n : Trace α) (t : Tracer) : Prop where
  kept : Run.Kept setting.options.materialise store.service (m.run.run t).2
  grows : t.Grows (m.run.run t).2
  stops : n.run.run t = m.run.run t ∨ (n.run.run t).1 = .error stopped ∧
    ∀ a t', m.run.run t = (.ok a, t') → store.service.LastShown setting name producer t'

/-- `n` is the trace `m`, up to where the producer is first processed for the name. -/
def Attends (store : Store) (setting : Setting) (name : String) (producer : Node)
    (m n : Trace α) : Prop :=
  ∀ t, Run.Kept setting.options.materialise store.service t →
    AttendsFrom store setting name producer m n t

namespace Attends

theorem of_grows {m : Trace α}
    (h : ∀ t, Run.Kept setting.options.materialise store.service t →
      Run.Kept setting.options.materialise store.service (m.run.run t).2 ∧
        t.Grows (m.run.run t).2) : Attends store setting name producer m m :=
  fun t ht => ⟨(h t ht).1, (h t ht).2, .inl rfl⟩

/-- A trace that changes nothing but notes. -/
theorem of_consults {m : Trace α} {x : Except GraphFault α} (hm : Consults store.service m x) :
    Attends store setting name producer m m := by
  refine of_grows fun t ht => ?_
  obtain ⟨t', hrun, hh, hs⟩ := hm t ht.honest
  rw [hrun]
  exact ⟨⟨hs.resolver ▸ ht.resolver, hh⟩, .of_sameMarks hs⟩

/-- A trace that changes nothing but marks and slices. -/
theorem modify {f : Tracer → Tracer} (hr : ∀ t, (f t).resolver = t.resolver)
    (hs : ∀ t, (f t).sites = t.sites) (ht : ∀ t, (f t).targets = t.targets)
    (hg : ∀ t : Tracer, t.Grows (f t)) :
    Attends store setting name producer (modify f : Trace Unit) (modify f) := by
  refine of_grows fun t hk => ⟨?_, hg t⟩
  change Run.Kept _ _ (f t)
  refine ⟨?_, ?_, ?_, ?_⟩
  · rw [hr]
    exact hk.resolver
  · rw [Tracer.graph, hr]
    exact hk.honest.alike
  · rw [hs]
    exact hk.honest.sites
  · rw [ht]
    exact hk.honest.targets

theorem bind {m n : Trace α} {f f' : α → Trace β} (hm : Attends store setting name producer m n)
    (hf : ∀ a, Attends store setting name producer (f a) (f' a)) :
    Attends store setting name producer (m >>= f) (n >>= f') := by
  intro t ht
  obtain ⟨hk, hg, hstops⟩ := hm t ht
  have hstopped (hstop : (n.run.run t).1 = .error stopped) :
      ((n >>= f').run.run t).1 = .error stopped := by
    rw [run_bind]
    generalize n.run.run t = ended at hstop
    obtain ⟨outcome, last⟩ := ended
    cases hstop
    rfl
  generalize hrun : m.run.run t = ended at hk hg hstops
  obtain ⟨outcome, t₁⟩ := ended
  cases outcome with
  | error fault =>
    have hfail : (m >>= f).run.run t = (.error fault, t₁) := by rw [run_bind, hrun]
    refine ⟨by rw [hfail]; exact hk, by rw [hfail]; exact hg, ?_⟩
    rcases hstops with hsame | ⟨hstop, -⟩
    · exact .inl (by rw [hfail, run_bind, hsame])
    · exact .inr ⟨hstopped hstop, fun _ _ h => nomatch hfail.symm.trans h⟩
  | ok a =>
    have hnext : (m >>= f).run.run t = (f a).run.run t₁ := by rw [run_bind, hrun]
    obtain ⟨hk', hg', hstops'⟩ := hf a t₁ hk
    refine ⟨by rw [hnext]; exact hk', by rw [hnext]; exact hg.trans hg', ?_⟩
    rcases hstops with hsame | ⟨hstop, hshown⟩
    · -- Not stopped so far, `n` goes on from the same tracer.
      have hnext' : (n >>= f').run.run t = (f' a).run.run t₁ := by rw [run_bind, hsame]
      rw [hnext, hnext']
      exact hstops'
    · -- What `m` has shown stays shown.
      refine .inr ⟨hstopped hstop, fun b t' h => (hshown a t₁ rfl).mono ?_⟩
      rw [hnext.symm.trans h] at hg'
      exact hg'

theorem resolve (this : NodeId) :
    Attends store setting name producer (resolve setting.options this)
      (resolve setting.options this) := by
  refine of_grows fun t ht => ?_
  rw [run_resolve]
  have hs := (ht.resolver.resolve_service this).1
  exact ⟨⟨hs, hs.alike, ht.honest.sites, ht.honest.targets⟩, fun _ h => h, fun _ h => h, id⟩

theorem truncate (reason : Truncation) :
    Attends store setting name producer (truncate reason) (truncate reason) :=
  modify (fun _ => rfl) (fun _ => rfl) (fun _ => rfl) fun _ => ⟨fun _ h => h, fun _ h => h, nofun⟩

theorem congruence (store : Store) (setting : Setting) (name : String) (producer : Node) :
    Congruence setting (Attends store setting name producer) where
  pure _ := of_consults .pure
  bind := bind
  ask _ := of_grows fun t ht => ⟨ht, .of_sameMarks (.refl t)⟩
  callSites function := of_consults (consults_callSites function)
  callTarget? call := of_consults (consults_callTarget? call)
  emit _ := modify (fun _ => rfl) (fun _ => rfl) (fun _ => rfl) fun t =>
    ⟨fun _ h => h, t.slices.subset_push _, id⟩
  resolve := resolve

/-- What a run leaves behind. -/
theorem of_run {m n : Trace α} (hm : Attends store setting name producer m n)
    (ht : Run.Kept setting.options.materialise store.service t) {x : Except GraphFault α}
    (hrun : m.run.run t = (x, t')) :
    Run.Kept setting.options.materialise store.service t' ∧ t.Grows t' := by
  obtain ⟨hk, hg, -⟩ := hm t ht
  rw [hrun] at hk hg
  exact ⟨hk, hg⟩

/-- Each round of a loop that ends well has ended well, and nothing is lost after it. -/
theorem exists_of_run_forM {f f' : α → Trace Unit} {l : List α}
    (hf : ∀ a ∈ l, Attends store setting name producer (f a) (f' a))
    (ht : Run.Kept setting.options.materialise store.service t)
    (hrun : (l.forM f).run.run t = (.ok (), t')) {a : α} (hm : a ∈ l) :
    ∃ t₁ t₂, Run.Kept setting.options.materialise store.service t₁ ∧
      (f a).run.run t₁ = (.ok (), t₂) ∧ t₂.Grows t' := by
  induction l generalizing t with
  | nil => cases hm
  | cons first rest ih =>
    obtain ⟨_, t₁, hfirst, hrest⟩ := exists_of_run_bind hrun
    have hk₁ := ((hf first List.mem_cons_self).of_run ht hfirst).1
    have hf' : ∀ b ∈ rest, Attends store setting name producer (f b) (f' b) :=
      fun b hb => hf b (List.mem_cons_of_mem _ hb)
    rcases List.mem_cons.mp hm with rfl | hm
    · have hloop := (congruence store setting name producer).forM hf'
      exact ⟨t, t₁, ht, hfirst, (hloop.of_run hk₁ hrest).2⟩
    · exact ih hf' hk₁ hrest hm

end Attends

/-! ## Occurrences that are looked at -/

/-- What is emitted is shown. -/
theorem met_of_emit {options : TraceOptions} {slice : Slice} {code scope : String}
    (hs : IsScope scope) (hc : slice.code = inScope scope code)
    (hrun : (emit options slice).run.run t = (.ok (), t')) :
    (Lead.text code slice.location).Met options t' := by
  obtain ⟨shown, hloc, hshows, hemit⟩ := exists_run_emit hs hc options t
  cases hemit.symm.trans hrun
  rw [← hloc]
  exact met_push hshows t

theorem markShown_of_run {g : Service} {scope mark : String} {id : NodeId} {origin : Node}
    (hs : IsScope scope) (hn : g.store.node? id = some origin) (ht : t.Honest g)
    (hrun : (emitMarked setting scope mark origin).run.run t = (.ok (), t')) :
    g.MarkShown setting.options mark id t' := by
  have hh : g.store.Holds origin := Store.holds_of_node? hn
  obtain ⟨rendered, hrend, hrun⟩ :=
    exists_of_run_ask (Service.renderNode_agree ht.alike hh false).eq hrun
  exact ⟨origin, rendered, hn, hrend, met_of_emit hs rfl hrun⟩

section

variable {descend descend' : Request → Trace Unit}
  (hd : ∀ q, IsScope q.scope → Attends store setting name producer (descend q) (descend' q))
  {scope : String} (hs : IsScope scope) {r : Request} (hr : IsScope r.scope)
  (ht : Run.Kept setting.options.materialise store.service t)
include hd ht

section

include hs

theorem ownerShown_of_run {this : NodeId} {node : Node} {depth : Nat} {owner : Owner}
    (hn : store.service.store.node? this = some node)
    (hrun : (ownerStep setting descend node scope depth owner).run.run t = (.ok (), t')) :
    store.service.OwnerShown setting.options this t' owner := by
  have hR := Attends.congruence store setting name producer
  cases owner with
  | window => exact ⟨node, hn, met_of_emit hs rfl hrun⟩
  | node id =>
    obtain ⟨owner, howner, hrun⟩ :=
      exists_of_run_ask (Service.node_agree ht.honest.alike nofun).eq hrun
    obtain ⟨_, t₁, hemit, hrest⟩ := exists_of_run_bind hrun
    have hshown := markShown_of_run hs (Service.node?_of_node howner) ht.honest hemit
    have hk₁ := ((hR.emitMarked _ _ owner).of_run ht hemit).1
    refine Service.MarkShown.mono hshown ?_
    split at hrest
    · exact ((hR.bind (hR.ask _) fun context => hd _ hs).of_run hk₁ hrest).2
    · exact ((hR.pure ()).of_run hk₁ hrest).2

/-- All that an occurrence of `this` belongs to is shown. -/
theorem thisShown_of_run {this : NodeId} {context : Node} {depth : Nat}
    (hrun : (thisOccurrence setting descend this context scope depth).run.run t = (.ok (), t')) :
    ∃ res, store.service.ThisShown setting.options this res t' := by
  have hR := Attends.congruence store setting name producer
  obtain ⟨res, t₁, hresolve, hrun⟩ := exists_of_run_bind hrun
  have hk₁ := ((hR.resolve this).of_run ht hresolve).1
  rw [run_resolve] at hresolve
  have howned := (ht.resolver.resolve_service this).2 res (Prod.mk.inj hresolve).1
  obtain ⟨node, hnode, hrun⟩ :=
    exists_of_run_ask (Service.node_agree hk₁.honest.alike nofun).eq hrun
  obtain ⟨_, t₂, hmethods, hrun⟩ := exists_of_run_bind hrun
  obtain ⟨_, t₃, hevents, hrest⟩ := exists_of_run_bind hrun
  have hmethod : ∀ method ∈ res.methods, Attends store setting name producer
      (ownerStep setting descend node scope depth method.owner)
      (ownerStep setting descend' node scope depth method.owner) :=
    fun method _ => hR.ownerStep hd hs node depth method.owner
  have hk₂ := ((hR.forM hmethod).of_run hk₁ hmethods).1
  have hevent : ∀ id ∈ res.events, Attends store setting name producer
      (ask (·.node id) >>= emitMarked setting scope ("this " ++ Slice.pointsToMark))
      (ask (·.node id) >>= emitMarked setting scope ("this " ++ Slice.pointsToMark)) :=
    fun id _ => hR.bind (hR.ask _) fun owner => hR.emitMarked _ _ owner
  obtain ⟨hk₃, hg₃⟩ := (hR.forM hevent).of_run hk₂ hevents
  have hg' := ((hd _ hs).of_run hk₃ hrest).2
  refine ⟨res, howned, fun method hm => ?_, fun id hm => ?_⟩
  · obtain ⟨t₄, t₅, hk₄, hstep, hg₅⟩ := Attends.exists_of_run_forM hmethod hk₁ hmethods hm
    have hshown := ownerShown_of_run hd hs hk₄ (Service.node?_of_node hnode) hstep
    exact hshown.mono ((hg₅.trans hg₃).trans hg')
  · obtain ⟨t₄, t₅, hk₄, hstep, hg₅⟩ := Attends.exists_of_run_forM hevent hk₂ hevents hm
    obtain ⟨owner, howner, hstep⟩ :=
      exists_of_run_ask (Service.node_agree hk₄.honest.alike nofun).eq hstep
    have hshown := markShown_of_run hs (Service.node?_of_node howner) hk₄.honest hstep
    exact hshown.mono (hg₅.trans hg')

end

include hr

theorem occurrenceShown_of_run {statement : Node} {entry : String × NodeId} (hne : entry.1 ≠ r.name)
    (hrun : (mentionStep setting descend r statement entry.1 entry.2).run.run t = (.ok (), t')) :
    store.service.OccurrenceShown setting entry t' := by
  unfold mentionStep at hrun
  rw [if_neg hne] at hrun
  unfold Service.OccurrenceShown
  split
  · next hthis =>
    rw [if_pos hthis] at hrun
    exact thisShown_of_run hd hr ht hrun
  · next hthis =>
    intro hb definition hcalls
    rw [if_neg hthis, if_neg (by simp [hb])] at hrun
    obtain ⟨called, t₁, hcalled, hrun⟩ := exists_of_run_bind hrun
    obtain ⟨t₂, hrun₂, hh₂, -⟩ := consults_calledDefinition? entry.2 t ht.honest
    obtain ⟨hanswer, rfl⟩ := Prod.mk.inj (hrun₂.symm.trans hcalled)
    obtain rfl := (Service.calledDefinition?_eq_some_iff hanswer).mpr hcalls
    obtain ⟨_, _, _, _, _, hfunction⟩ := hcalls
    exact markShown_of_run hr (Service.functionOf?_stored hfunction) hh₂ hrun

/-- An ordinary statement that is processed has the last occurrence of each name shown. -/
theorem lastShown_of_run (ho : store.service.Ordinary producer)
    {step : Node → CallSite → Trace Unit}
    (hrun : (producerStep setting descend step r producer).run.run t = (.ok (), t')) :
    store.service.LastShown setting r.name producer t' := by
  have hR := Attends.congruence store setting name producer
  rw [producerStep, if_neg ho.type_ne] at hrun
  obtain ⟨owner, howner, hrun⟩ :=
    exists_of_run_ask (Service.parameterOwner?_agree ht.honest.alike ho.held).eq hrun
  cases owner with
  | some function =>
    exact absurd ((Service.parameterOwner?_eq_some_iff howner).mp rfl) (ho.not_standsFor function)
  | none =>
    obtain ⟨rendered, hrend, hrun⟩ :=
      exists_of_run_ask (Service.renderNode_agree ht.honest.alike ho.held false).eq hrun
    obtain ⟨_, t₁, hemit, hmentions⟩ := exists_of_run_bind hrun
    have hk₁ := ((hR.emit _).of_run ht hemit).1
    intro other origin hne hlast
    have hm : (other, origin) ∈ rendered.identifiers.entries := by
      rw [Service.identifiers_renderNode hrend]
      exact IdentifierMap.mem_ofList.mpr hlast
    obtain ⟨t₂, t₃, hk₂, hstep, hg₃⟩ := Attends.exists_of_run_forM
      (fun entry _ => hR.mentionStep hd hr producer entry.1 entry.2) hk₁ hmentions hm
    exact (occurrenceShown_of_run hd hr hk₂ hne hstep).mono hg₃

end

/-! ## Requests -/

theorem expand_attends {step step' : Node → Trace Unit}
    (hstep : ∀ node, Attends store setting name producer (step node) (step' node)) (r : Request) :
    Attends store setting name producer (expand step r) (expand step' r) := by
  refine (Attends.congruence store setting name producer).expand ?_ (.truncate .deadline) ?_ ?_ _ _
    hstep
  · exact .of_grows fun t ht => ⟨⟨ht.resolver, ht.honest.tick⟩, .of_eq rfl rfl rfl⟩
  · exact .of_grows fun t ht => ⟨ht, .of_eq rfl rfl rfl⟩
  · exact .modify (fun _ => rfl) (fun _ => rfl) (fun _ => rfl) fun _ =>
      ⟨fun _ h => List.mem_cons_of_mem _ h, fun _ h => h, id⟩

theorem follow_attends (ho : store.service.Ordinary producer) (levels : Nat) {r : Request}
    (hr : IsScope r.scope) :
    Attends store setting name producer (follow setting levels r)
      (followTo setting name producer levels r) := by
  have hR := Attends.congruence store setting name producer
  induction levels generalizing r with
  | zero => exact .truncate .depth
  | succ levels ih =>
    refine expand_attends (fun node => ?_) r
    have hstep := hR.producerStep (fun q hq => ih (r := q) hq) hr
      (hR.siteStep (r := r) isScope_callScope fun q hq => ih (r := q) hq) node
    split
    · next hat =>
      obtain ⟨rfl, rfl⟩ := hat
      refine fun t ht => ⟨(hstep t ht).kept, (hstep t ht).grows, .inr ⟨rfl, fun _ t' hrun => ?_⟩⟩
      exact lastShown_of_run (fun q hq => ih hq) hr ht ho hrun
    · exact hstep

theorem answering_attends (ho : store.service.Ordinary producer) (target : Tracer.Target)
    (context : NodeId) :
    Attends store setting name producer (answering setting (follow setting) target context)
      (answering setting (followTo setting name producer) target context) :=
  (Attends.congruence store setting name producer).answering (.inl rfl) _ _
    (fun levels _ hq => follow_attends ho levels hq) target context

end Trace

namespace Tracer

/-- **The last occurrence of each name counts.** Take a query that ends well, after any earlier
queries, and an ordinary statement that it processes for a name. For every other name that rendering
the statement reads, what the last occurrence of that name asks for has been shown by the end. -/
theorem query_shows_last (store : Store) (setting : Trace.Setting) (earlier : List Query)
    (target : Target) (context : NodeId) (slices : SliceSet) {t' : Tracer}
    (hquery : ((Tracer.new store.service).after setting earlier).query setting target context slices =
      (.ok (), t'))
    {name : String} {producer : Node} (ho : store.service.Ordinary producer)
    (hprocessed : (((Tracer.new store.service).after setting earlier).queryTo setting name producer
      target context slices).1 = .error Trace.stopped)
    {other : String} {origin : NodeId} (hne : other ≠ name)
    (hlast : (store.service.occurrences producer).reverse.lookup other = some origin) :
    store.service.OccurrenceShown setting (other, origin) t' := by
  have hkept := kept_after (Run.Kept.new setting.options.materialise store.service) setting earlier
  have hstart : Run.Kept setting.options.materialise store.service
      (((Tracer.new store.service).after setting earlier).started setting.options.deadline slices) :=
    ⟨hkept.resolver, hkept.honest.started _ slices⟩
  rw [query] at hquery
  rw [queryTo] at hprocessed
  rcases (Trace.answering_attends ho target context _ hstart).stops with hsame | ⟨-, hshown⟩
  · -- Had it not come to the statement, it would have ended well.
    rw [hsame, hquery] at hprocessed
    cases hprocessed
  · exact hshown () t' hquery other origin hne hlast

end Tracer

/-- A page with the statements `function send() { x = this.u + h(function () { return this.v });
fetch(x) } send.call(o)`, or with the two operands the other way round. -/
def callbackPage (callbackLast : Bool) : Store :=
  .ofLists
    [{ id := 1, type := .program },
     { id := 2, type := .functionDeclaration, location := "line:1" },
     { id := 3, type := .identifier, code := "send" }, { id := 4, type := .blockStatement },
     { id := 5, type := .expressionStatement, location := "line:2" },
     { id := 6, type := .assignmentExpression, code := "=" },
     { id := 7, type := .identifier, code := "x" },
     { id := 8, type := .binaryExpression, code := "+" }, { id := 9, type := .memberExpression },
     { id := 10, type := .thisExpression, location := "line:2" },
     { id := 11, type := .identifier, code := "u" }, { id := 12, type := .callExpression },
     { id := 13, type := .identifier, code := "h" }, { id := 14, type := .functionExpression },
     { id := 15, type := .blockStatement }, { id := 16, type := .returnStatement },
     { id := 17, type := .memberExpression },
     { id := 18, type := .thisExpression, location := "line:2" },
     { id := 19, type := .identifier, code := "v" },
     { id := 20, type := .expressionStatement, location := "line:3" },
     { id := 21, type := .callExpression }, { id := 22, type := .identifier, code := "fetch" },
     { id := 23, type := .identifier, code := "x" },
     { id := 24, type := .expressionStatement, location := "line:4" },
     { id := 25, type := .callExpression }, { id := 26, type := .memberExpression },
     { id := 27, type := .identifier, code := "send" },
     { id := 28, type := .identifier, code := "call" },
     { id := 29, type := .identifier, code := "o", location := "line:4" }]
    [{ source := 1, target := 2, relation := .ast, relationType := "body" },
     { source := 2, target := 3, relation := .ast, relationType := "id" },
     { source := 2, target := 4, relation := .ast, relationType := "body" },
     { source := 4, target := 5, relation := .ast, relationType := "body" },
     { source := 5, target := 6, relation := .ast, relationType := "expression" },
     { source := 6, target := 7, relation := .ast, relationType := "left" },
     { source := 6, target := 8, relation := .ast, relationType := "right" },
     { source := 8, target := 9, relation := .ast,
       relationType := if callbackLast then "left" else "right" },
     { source := 9, target := 10, relation := .ast, relationType := "object" },
     { source := 9, target := 11, relation := .ast, relationType := "property" },
     { source := 8, target := 12, relation := .ast,
       relationType := if callbackLast then "right" else "left" },
     { source := 12, target := 13, relation := .ast, relationType := "callee" },
     { source := 12, target := 14, relation := .ast, relationType := "arguments" },
     { source := 14, target := 15, relation := .ast, relationType := "body" },
     { source := 15, target := 16, relation := .ast, relationType := "body" },
     { source := 16, target := 17, relation := .ast, relationType := "argument" },
     { source := 17, target := 18, relation := .ast, relationType := "object" },
     { source := 17, target := 19, relation := .ast, relationType := "property" },
     { source := 4, target := 20, relation := .ast, relationType := "body" },
     { source := 20, target := 21, relation := .ast, relationType := "expression" },
     { source := 21, target := 22, relation := .ast, relationType := "callee" },
     { source := 21, target := 23, relation := .ast, relationType := "arguments" },
     { source := 1, target := 24, relation := .ast, relationType := "body" },
     { source := 24, target := 25, relation := .ast, relationType := "expression" },
     { source := 25, target := 26, relation := .ast, relationType := "callee" },
     { source := 26, target := 27, relation := .ast, relationType := "object" },
     { source := 26, target := 28, relation := .ast, relationType := "property" },
     { source := 25, target := 29, relation := .ast, relationType := "arguments" },
     { source := 5, target := 20, relation := .pdg, arguments := "x" }]

namespace callbackPage

/-- Tracing without layout, without writing owners down, and with no name taken for granted. -/
def setting : Trace.Setting := ⟨⟨[]⟩, { layout := false, materialise := false }⟩

/-- The query for `x` at `fetch(x)`. -/
def asked (callbackLast : Bool) : Except GraphFault Unit × Tracer :=
  (Tracer.new (callbackPage callbackLast).service).query setting (.name "x") 20

/-- The statement that `x` is assigned in. -/
def statement : Node := { id := 5, type := .expressionStatement, location := "line:2" }

/-- The query, up to where it processes the assignment for `x`. -/
def askedTo (callbackLast : Bool) : Except GraphFault Unit × Tracer :=
  (Tracer.new (callbackPage callbackLast).service).queryTo setting "x" statement (.name "x") 20

/-- The owner of `this` in `this.u`: the `o` that `send` is called on. -/
def owners : Resolution := { methods := [⟨25, .node 29⟩] }

theorem ordinary_statement (callbackLast : Bool) :
    (callbackPage callbackLast).service.Ordinary statement := by
  refine .of_type ?_ (by decide) rfl (by decide)
  unfold Store.Holds
  cases callbackLast <;> decide +kernel

theorem owned_this (callbackLast : Bool) :
    (callbackPage callbackLast).service.owned false 10 = .ok owners := by
  cases callbackLast <;> decide +kernel

/-- Where the owners of `this` in `this.u` are shown, `o` is. -/
theorem markShown_of_thisShown {callbackLast : Bool} {t : Tracer}
    (h : (callbackPage callbackLast).service.OccurrenceShown setting (thisIdentifier, 10) t) :
    (callbackPage callbackLast).service.MarkShown setting.options ("this " ++ Slice.pointsToMark) 29
      t := by
  obtain ⟨res, howned, hmethods, -⟩ := h
  cases (owned_this callbackLast).symm.trans howned
  exact hmethods ⟨25, .node 29⟩ (List.mem_singleton_self _)

end callbackPage

/-- The query for `p` in the body of `f`, up to where it processes the declaration of `b`. -/
def parameterPage.askedTo : Except GraphFault Unit × Tracer :=
  (Tracer.new parameterPage.service).queryTo setting "b" declaration (.name "p") 14

/-- With `this.u` last, its owner is shown. In `var b = h()` the definition of `h` is. -/
theorem Tracer.query_shows_last_receiver :
    (callbackPage.asked false).1 = .ok () ∧
    (callbackPage.askedTo false).1 = .error Trace.stopped ∧
    ((callbackPage false).service.occurrences callbackPage.statement).reverse.lookup
      thisIdentifier = some 10 ∧
    (callbackPage false).service.MarkShown callbackPage.setting.options
      ("this " ++ Slice.pointsToMark) 29 (callbackPage.asked false).2 ∧
    parameterPage.asked.1 = .ok () ∧ parameterPage.askedTo.1 = .error Trace.stopped ∧
    (parameterPage.service.occurrences parameterPage.declaration).reverse.lookup "h" = some 16 ∧
    parameterPage.service.Calls 16 parameterPage.definition ∧
    parameterPage.service.MarkShown parameterPage.setting.options Slice.definitionMark 17
      parameterPage.asked.2 := by
  have hrun : (callbackPage.asked false).1 = .ok () ∧
      (callbackPage.askedTo false).1 = .error Trace.stopped ∧
      ((callbackPage false).service.occurrences callbackPage.statement).reverse.lookup
        thisIdentifier = some 10 := by decide +kernel
  obtain ⟨hok, hprocessed, hlast⟩ := hrun
  have hquery : callbackPage.asked false = (.ok (), (callbackPage.asked false).2) := by rw [← hok]
  have hshown := query_shows_last (callbackPage false) callbackPage.setting [] (.name "x") 20 {}
    hquery (callbackPage.ordinary_statement false) hprocessed (by decide) hlast
  refine ⟨hok, hprocessed, hlast, callbackPage.markShown_of_thisShown hshown, ?_⟩
  have hrun' : parameterPage.asked.1 = .ok () ∧ parameterPage.askedTo.1 = .error Trace.stopped ∧
      (parameterPage.service.occurrences parameterPage.declaration).reverse.lookup "h" = some 16 := by
    decide +kernel
  obtain ⟨hok', hprocessed', hlast'⟩ := hrun'
  have hordinary : parameterPage.service.Ordinary parameterPage.declaration :=
    .of_type (by unfold Store.Holds; decide +kernel) (by decide) rfl (by decide)
  have hquery' : parameterPage.asked = (.ok (), parameterPage.asked.2) := by rw [← hok']
  have hshown' := query_shows_last parameterPage parameterPage.setting [] (.name "p") 14 {} hquery'
    hordinary hprocessed' (by decide) hlast'
  exact ⟨hok', hprocessed', hlast', parameterPage.calls_definition,
    hshown' rfl parameterPage.definition parameterPage.calls_definition⟩

/-- With the callback last, the `this` in it is looked at instead, and nothing of the line with `o`
is shown. -/
theorem Tracer.query_callbackPage_hidden :
    (callbackPage true).Closed ∧ (callbackPage true).AstAcyclic ∧
    (callbackPage.asked true).1 = .ok () ∧ (callbackPage.asked true).2.truncation = none ∧
    (callbackPage true).service.Ordinary callbackPage.statement ∧
    (callbackPage.askedTo true).1 = .error Trace.stopped ∧
    (thisIdentifier, 10) ∈ (callbackPage true).service.occurrences callbackPage.statement ∧
    (callbackPage true).service.owned false 10 = .ok callbackPage.owners ∧
    ¬ (callbackPage true).service.OccurrenceShown callbackPage.setting (thisIdentifier, 10)
      (callbackPage.asked true).2 := by
  have hrun : (callbackPage.asked true).1 = .ok () ∧
      (callbackPage.asked true).2.truncation = none ∧
      (callbackPage.askedTo true).1 = .error Trace.stopped ∧
      ∀ slice ∈ (callbackPage.asked true).2.slices.slices, slice.location ≠ "line:4" := by
    decide +kernel
  obtain ⟨hok, hn, hprocessed, hlines⟩ := hrun
  refine ⟨by decide +kernel, Store.astAcyclic_of_lt (by decide +kernel), hok, hn,
    callbackPage.ordinary_statement true, hprocessed, by decide +kernel,
    callbackPage.owned_this true, fun hshown => ?_⟩
  obtain ⟨node, _, hnode, -, slice, hm, -, hloc⟩ := callbackPage.markShown_of_thisShown hshown
  have hstored : ((callbackPage true).service.store.node? 29).map (·.location) =
      some "line:4" := by decide +kernel
  rw [hnode] at hstored
  exact hlines slice hm (hloc.trans (Option.some.inj hstored))

end RequestFlow

/-
A trace is exact on pages without `this`. Each step of the trace is a walk
through what its pair leads to. So a query that is not cut short expands exactly
the pairs that its first pair leads to in any number of steps, and shows exactly
their texts.
-/
import RequestFlow.Proofs.Trace.Walks

namespace RequestFlow

/-- A page without `this` on which every question has an answer. -/
structure Service.Plain (g : Service) : Prop where
  answers : Service.Alike .total g g
  closed : g.store.Closed
  withoutThis : g.store.WithoutThis

theorem Store.plain_service {store : Store} (hc : store.Closed) (hw : store.WithoutThis) :
    store.service.Plain := ⟨.of_closed hc, hc, hw⟩

namespace Trace

variable {g : Service} {setting : Setting} {own : String → Node → Lead → Prop}
  {start : String × NodeId}

/-- The request is for a value that the trace from `start` leads to. -/
structure ReachedOver (g : Service) (own : String → Node → Lead → Prop) (start : String × NodeId)
    (r : Request) : Prop where
  value : r.declarations = false
  scope : IsScope r.scope
  context : g.store.Holds r.context
  pair : g.ReachesOver own start (r.name, r.context.id)

/-- `descend` expands what is asked for. -/
def DescendsOver (g : Service) (setting : Setting) (own : String → Node → Lead → Prop)
    (start : String × NodeId) (descend : Request → Trace Unit) : Prop :=
  ∀ r, ReachedOver g own start r →
    WalksOver g setting own start (descend r) (· = .pair r.name r.context.id)

abbrev Descends (g : Service) (setting : Setting) (start : String × NodeId)
    (descend : Request → Trace Unit) : Prop :=
  DescendsOver g setting (g.ProducerLead setting.builtins) start descend

section

variable {descend : Request → Trace Unit} (hp : g.Plain)
  (hd : DescendsOver g setting own start descend) {r : Request}
  (hr : ReachedOver g own start r) {producer : Node} (hh : g.store.Holds producer)
include hp hd hr hh

theorem mentionStep_walks {mention : String × NodeId} (hm : g.Mentions mention)
    (hl : ∀ lead, g.MentionLead setting.builtins r.name producer mention lead →
      g.LeadsOver own (r.name, r.context.id) lead) :
    WalksOver g setting own start (mentionStep setting descend r producer mention.1 mention.2)
      (g.MentionLead setting.builtins r.name producer mention) := by
  unfold mentionStep
  split
  · next hsame =>
    refine .skip fun lead h => ?_
    cases h with
    | back hn => exact hn hsame
    | definition hn => exact hn hsame
  next hne =>
  split
  · next hthis => exact absurd hthis (hm.ne_this hp.withoutThis)
  split
  · next hb =>
    refine .skip fun lead h => ?_
    cases h with
    | back _ hb' => exact absurd hb (by simp [hb'])
    | definition _ hb' => exact absurd hb (by simp [hb'])
  next hb =>
  replace hb : setting.builtins.contains mention.1 = false := by simpa using hb
  obtain ⟨r', hcalled, hholds⟩ :=
    (Service.calledDefinition?_agree hp.answers (fun _ => hp.closed) mention.2).exists_ok
  refine .after (consults_calledDefinition? mention.2) hcalled ?_
  cases r' with
  | some definition =>
    obtain ⟨rendered, hrend, -⟩ :=
      (Service.renderNode_agree hp.answers (hholds definition rfl) false).exists_ok
    have hcalls := (Service.calledDefinition?_eq_some_iff hcalled).mp rfl
    refine .after (consults_render (hholds definition rfl)) hrend ?_
    refine WalksOver.imp (emit_walks hr.scope rfl rfl hr.pair (hl _ (.definition hne hb hcalls hrend)))
      fun lead h => ?_
    cases h with
    | back _ _ hno => exact absurd hcalls (hno definition)
    | definition _ _ hcalls' hrend' =>
      cases (Service.calledDefinition?_eq_some_iff hcalled).mpr hcalls'
      rw [hrend] at hrend'
      cases hrend'
      rfl
  | none =>
    have hno : ∀ definition, ¬ g.Calls mention.2 definition :=
      fun definition hc => nomatch (Service.calledDefinition?_eq_some_iff hcalled).mpr hc
    have hback : g.MentionLead setting.builtins r.name producer mention
        (.pair mention.1 producer.id) := .back hne hb hno
    have hnext : ReachedOver g own start
        { name := mention.1, context := producer, scope := r.scope, depth := r.depth + 1 } :=
      ⟨rfl, hr.scope, hh, hr.pair.tail (hl _ hback)⟩
    refine (hd _ hnext).imp fun lead h => ?_
    cases h with
    | back => rfl
    | definition _ _ hcalls => exact absurd hcalls (hno _)

theorem statementStep_walks (ho : ∀ function, ¬ g.StandsFor producer function)
    (hl : ∀ lead, g.ProducerLead setting.builtins r.name producer lead →
      g.LeadsOver own (r.name, r.context.id) lead) :
    WalksOver g setting own start (statementStep setting descend r producer)
      (g.ProducerLead setting.builtins r.name producer) := by
  unfold statementStep
  obtain ⟨rendered, hrend, hsound⟩ := (Service.renderNode_agree hp.answers hh false).exists_ok
  refine .after (consults_render hh) hrend ?_
  refine WalksOver.imp (WalksOver.seq
    (emit_walks hr.scope rfl rfl hr.pair (hl _ (.statement ho hrend)))
    (.forM fun mention hm => mentionStep_walks hp hd hr hh (hsound mention hm)
      fun lead h => hl lead (.mention ho hrend hm h))) fun lead h => ?_
  cases h with
  | statement _ hrend' => rw [hrend] at hrend'; cases hrend'; exact .inl rfl
  | mention _ hrend' hm h => rw [hrend] at hrend'; cases hrend'; exact .inr ⟨_, hm, h⟩
  | parameter ho' => exact absurd ho' (ho _)
  | site ho' => exact absurd ho' (ho _)

omit hh in
theorem argumentStep_walks {argument : Argument} (ha : argument.identifiers.Sound g)
    {statement : Node} (hs : g.store.Holds statement) {scope : String} (hscope : IsScope scope)
    (hl : ∀ lead, Service.ArgumentLead setting.builtins argument statement lead →
      g.LeadsOver own (r.name, r.context.id) lead) :
    WalksOver g setting own start (argumentStep setting descend argument statement scope r.depth)
      (Service.ArgumentLead setting.builtins argument statement) := by
  unfold argumentStep
  split
  · next hk =>
    refine .skip fun lead h => ?_
    cases h with
    | back hk' => exact hk' hk
  next hk =>
  have hentries : ∀ entry ∈ argument.identifiers.entries,
      WalksOver g setting own start
        (if entry.1 = thisIdentifier then
            thisOccurrence setting descend entry.2 statement scope r.depth
          else if setting.builtins.contains entry.1 then return
          else descend { name := entry.1, context := statement, scope, depth := r.depth + 1 })
        fun lead => setting.builtins.contains entry.1 = false ∧
          lead = .pair entry.1 statement.id := by
    intro entry hm
    rw [if_neg ((ha entry hm).ne_this hp.withoutThis)]
    split
    · next hb => exact .skip fun lead h => by simp [hb] at h
    next hb =>
    have hback : Service.ArgumentLead setting.builtins argument statement
        (.pair entry.1 statement.id) := .back hk hm (by simpa using hb)
    have hnext : ReachedOver g own start
        { name := entry.1, context := statement, scope, depth := r.depth + 1 } :=
      ⟨rfl, hscope, hs, hr.pair.tail (hl _ hback)⟩
    exact (hd _ hnext).imp fun lead h => h.2
  refine (WalksOver.forM hentries).imp fun lead h => ?_
  cases h with
  | back _ hm hb => exact ⟨_, hm, hb, rfl⟩

omit hh in
/-- A call site owes the argument that it binds, and the names in it unless it is skipped. -/
theorem bindingStep_walks {skip : Argument → Trace Bool} {traced : Argument → Prop} {site : CallSite}
    (hs : site.Sound g)
    (hskip : ∀ argument, site.get? r.name = some argument →
      ∃ skipped, Consults g (skip argument) (.ok skipped) ∧ (skipped = true ↔ ¬ traced argument))
    (hl : ∀ lead, g.BindingLead setting.builtins traced r.name site lead →
      g.LeadsOver own (r.name, r.context.id) lead) :
    WalksOver g setting own start (bindingStep setting descend skip r.name r.depth site)
      (g.BindingLead setting.builtins traced r.name site) := by
  unfold bindingStep
  split
  · next ha =>
    refine .skip fun lead h => ?_
    cases h with
    | shown ha' => cases ha.symm.trans ha'
    | argument ha' => cases ha.symm.trans ha'
  next argument ha =>
  obtain ⟨statement, hst, hholds⟩ := (Service.statement_agree hp.answers fun _ => hs.call).exists_ok
  obtain ⟨skipped, hconsults, hskipped⟩ := hskip argument ha
  have hrest : WalksOver g setting own start
      (if skipped = true then return else do
        let statement ← ask (·.statement site.call)
        argumentStep setting descend argument statement (callScope site.call) r.depth)
      fun lead => traced argument ∧ Service.ArgumentLead setting.builtins argument statement lead := by
    split
    · next hyes => exact .skip fun lead h => hskipped.mp hyes h.1
    next hno =>
    have htraced : traced argument := not_not.mp fun hn => hno (hskipped.mpr hn)
    refine .after (consults_ask fun a => (Service.statement_agree a nofun).eq) hst ?_
    refine (argumentStep_walks hp hd hr (hs.get? ha) hholds (isScope_callScope site.call) ?_).imp
      fun lead h => h.2
    exact fun lead h => hl _ (.argument ha htraced hst h)
  refine WalksOver.imp (WalksOver.seq
    (emit_walks (isScope_callScope site.call) rfl rfl hr.pair (hl _ (.shown ha)))
    (.after hconsults rfl hrest)) fun lead h => ?_
  cases h with
  | shown ha' => cases ha.symm.trans ha'; exact .inl rfl
  | argument ha' ht hst' h =>
    cases ha.symm.trans ha'
    cases hst.symm.trans hst'
    exact .inr ⟨ht, h⟩

omit hd hr hh in
theorem consults_passedOn (name : String) (function : Node) (site : CallSite) (argument : Argument) :
    ∃ passed, Consults g (passedOn name function site argument) (.ok passed) ∧
      (passed = true ↔ g.PassesOn name function site argument) := by
  unfold passedOn
  split
  · next hown =>
    obtain ⟨below, hb, -⟩ := (Service.isBelow_agree hp.answers site.call function.id).exists_ok
    refine ⟨below, hb ▸ consults_ask fun a => (Service.isBelow_agree a _ _).eq, ?_, ?_⟩
    · rintro rfl
      exact ⟨hown.1, hown.2, hb⟩
    · rintro ⟨-, -, hb'⟩
      cases hb.symm.trans hb'
      rfl
  · next hown => exact ⟨false, .pure, nofun, fun h => absurd ⟨h.1, h.2.1⟩ hown⟩

omit hh in
theorem siteStep_walks {function : Node} {site : CallSite} (hs : site.Sound g)
    (hl : ∀ lead, g.SiteLead setting.builtins r.name function site lead →
      g.LeadsOver own (r.name, r.context.id) lead) :
    WalksOver g setting own start (siteStep setting descend r function site)
      (g.SiteLead setting.builtins r.name function site) := by
  refine bindingStep_walks hp hd hr hs (fun argument _ => ?_) hl
  obtain ⟨passed, hconsults, hpassed⟩ := consults_passedOn hp r.name function site argument
  exact ⟨passed, hconsults, hpassed.trans not_not.symm⟩

omit hd hh in
theorem parameterStep_walks {function : Node} (ho : g.StandsFor producer function)
    (hl : ∀ lead, g.ProducerLead setting.builtins r.name producer lead →
      g.LeadsOver own (r.name, r.context.id) lead)
    {step : CallSite → Trace Unit} {more : CallSite → Lead → Prop}
    (hstep : ∀ site, site.Sound g → g.Binds r.name producer function site →
      WalksOver g setting own start (step site) fun lead =>
        g.SiteLead setting.builtins r.name function site lead ∨ more site lead) :
    WalksOver g setting own start (parameterStep setting step r producer function) fun lead =>
      g.ProducerLead setting.builtins r.name producer lead ∨
        ∃ site, g.Binds r.name producer function site ∧ more site lead := by
  unfold parameterStep
  obtain ⟨params, hps, -⟩ := (Service.parameters_agree hp.answers function.id).exists_ok
  refine .after (consults_ask fun a => (Service.parameters_agree a function.id).eq) hps ?_
  split
  · next hn =>
    replace hn : r.name ∈ params := by simpa using hn
    obtain ⟨sites, hs, hsound⟩ :=
      (Service.callSites_agree hp.answers (fun _ => hp.closed) function.id).exists_ok
    refine WalksOver.imp (WalksOver.seq
      (emit_walks hr.scope rfl rfl hr.pair (hl _ (.parameter ho hps hn)))
      (.after (consults_callSites function.id) hs (.forM fun site hm =>
        hstep site (hsound site hm) ⟨ho, ⟨params, hps, hn⟩, sites, hs, hm⟩))) fun lead h => ?_
    rcases h with h | ⟨site, ⟨-, -, sites', hs', hm⟩, h⟩
    · cases h with
      | statement ho' => exact absurd ho (ho' function)
      | mention ho' => exact absurd ho (ho' function)
      | parameter => exact .inl rfl
      | site ho' hps' _ hs' hm h =>
        cases ho.unique ho'
        rw [hs] at hs'; cases hs'
        exact .inr ⟨_, hm, .inl h⟩
    · rw [hs] at hs'; cases hs'
      exact .inr ⟨site, hm, .inr h⟩
  · next hn =>
    refine .skip fun lead h => ?_
    rcases h with h | ⟨site, ⟨-, ⟨params', hps', hn'⟩, -⟩, -⟩
    · cases h with
      | statement ho' => exact absurd ho (ho' function)
      | mention ho' => exact absurd ho (ho' function)
      | parameter ho' hps' hn' =>
        cases ho.unique ho'
        rw [hps] at hps'; cases hps'
        simp [hn'] at hn
      | site ho' hps' hn' =>
        cases ho.unique ho'
        rw [hps] at hps'; cases hps'
        simp [hn'] at hn
    · rw [hps] at hps'; cases hps'
      simp [hn'] at hn

/-- A producer owes what it leads to, and what is owed more at its call sites. -/
theorem producerStep_walks
    (hl : producer.type ≠ .program → ∀ lead, g.ProducerLead setting.builtins r.name producer lead →
      g.LeadsOver own (r.name, r.context.id) lead)
    {step : Node → CallSite → Trace Unit} {more : Node → CallSite → Lead → Prop}
    (hstep : producer.type ≠ .program → ∀ function site, site.Sound g →
      g.Binds r.name producer function site →
      WalksOver g setting own start (step function site) fun lead =>
        g.SiteLead setting.builtins r.name function site lead ∨ more function site lead) :
    WalksOver g setting own start (producerStep setting descend step r producer) fun lead =>
      producer.type ≠ .program ∧ (g.ProducerLead setting.builtins r.name producer lead ∨
        ∃ function site, g.Binds r.name producer function site ∧ more function site lead) := by
  unfold producerStep
  split
  · next hprogram => exact .skip fun lead h => h.1 hprogram
  next ht =>
  obtain ⟨owner, howner, -⟩ := (Service.parameterOwner?_agree hp.answers hh).exists_ok
  refine .after (consults_ask fun a => (Service.parameterOwner?_agree a hh).eq) howner ?_
  have ho : ∀ {function}, owner = some function ↔ g.StandsFor producer function :=
    Service.parameterOwner?_eq_some_iff howner
  cases owner with
  | none =>
    have hno : ∀ function, ¬ g.StandsFor producer function := fun _ h => nomatch ho.mpr h
    refine (statementStep_walks hp hd hr hh hno (hl ht)).imp fun lead h => ?_
    rcases h.2 with h | ⟨function, site, hb, -⟩
    · exact h
    · exact absurd hb.owner (hno function)
  | some function =>
    refine (parameterStep_walks hp hr (ho.mp rfl) (hl ht) (hstep ht function)).imp fun lead h => ?_
    rcases h.2 with h | ⟨function', site, hb, h⟩
    · exact .inl h
    · cases ho.mpr hb.owner
      exact .inr ⟨site, hb, h⟩

end

/-- A request is expanded, if each producer leaves behind what it leads to. -/
theorem expand_walks (hp : g.Plain) {r : Request} (hr : ReachedOver g own start r)
    {step : Node → Trace Unit}
    (hstep : ∀ producer, g.store.Holds producer →
      (producer.type ≠ .program → ∀ lead, own r.name producer lead →
        g.LeadsOver own (r.name, r.context.id) lead) →
      WalksOver g setting own start (step producer) fun lead =>
        producer.type ≠ .program ∧ own r.name producer lead) :
    WalksOver g setting own start (expand step r) (· = .pair r.name r.context.id) := by
  intro t ht
  by_cases hx : t.deadline.hasPassed = true
  · refine ⟨{ t.tick with truncation := some .deadline }, ?_, ⟨ht.alike, ht.sites, ht.targets⟩,
      .of_cut rfl rfl rfl, nofun⟩
    rw [run_expand, if_pos hx]
  by_cases hv : (r.name, r.context.id) ∈ t.visited
  · refine ⟨t.tick, ?_, ht.tick, .of_eq rfl rfl rfl, by rintro - _ rfl; exact hv⟩
    rw [run_expand, if_neg hx, if_pos hv]
  obtain ⟨producers, hps, hholds⟩ := (Service.producers_agree hp.answers (fun _ => hp.closed) r.name
    r.context.id false).exists_ok
  have hwalk : WalksOver g setting own start (producers.forM step) fun lead =>
      ∃ producer ∈ producers, producer.type ≠ .program ∧ own r.name producer lead :=
    WalksOver.forM fun producer hm => hstep producer (hholds producer hm) fun hn lead h =>
      ⟨producer, ((Service.mem_producers hps).mp ⟨hm, hn⟩).1, h⟩
  obtain ⟨t', hrun, hh, ha, hmet⟩ := hwalk (t.tick.visit r) (ht.tick.visit r)
  have hin : (r.name, r.context.id) ∈ t'.visited := ha.visited List.mem_cons_self
  refine ⟨t', ?_, hh, ?_, by rintro - _ rfl; exact hin⟩
  · have hask : (t.tick.visit r).graph.producers r.name r.context.id r.declarations =
        .ok producers := by
      rw [hr.value, ← hps]
      exact (Service.producers_agree ht.alike nofun _ _ _).eq.symm
    rw [run_expand, if_neg hx, if_neg hv, ← hrun, expansion, run_bind, run_ask, hask]
  · exact {
      visited := fun _ h => ha.visited (List.mem_cons_of_mem _ h)
      slices := ha.slices
      truncation := ha.truncation
      pairs := fun pair hm => by
        rcases ha.pairs pair hm with hm | hm
        · rcases List.mem_cons.mp hm with rfl | hm
          · exact .inr hr.pair
          · exact .inl hm
        · exact .inr hm
      shown := ha.shown
      complete := fun hn pair hm hnew lead hl => by
        by_cases hsame : pair = (r.name, r.context.id)
        · subst hsame
          obtain ⟨producer, hprod, hl⟩ := hl
          obtain ⟨hm, hne⟩ := (Service.mem_producers hps).mpr ⟨hprod, nofun⟩
          exact hmet hn lead ⟨producer, hm, hne, hl⟩
        · exact ha.complete hn pair hm (by simp [Tracer.visit, Tracer.tick, hsame, hnew]) lead hl }

/-- A trace walks, if its step for a call site does: producers lead to what is in `own`, and that is
what the call sites owe more. -/
theorem followBy_walks (hp : g.Plain)
    {step : (Request → Trace Unit) → Request → Node → CallSite → Trace Unit}
    (more : String → Node → CallSite → Lead → Prop)
    (hown : ∀ name producer lead, own name producer lead ↔
      g.ProducerLead setting.builtins name producer lead ∨
        ∃ function site, g.Binds name producer function site ∧ more name function site lead)
    (hstep : ∀ {descend}, DescendsOver g setting own start descend →
      ∀ {r}, ReachedOver g own start r → ∀ {function site}, site.Sound g →
      (∀ lead, g.SiteLead setting.builtins r.name function site lead ∨ more r.name function site lead →
        g.LeadsOver own (r.name, r.context.id) lead) →
      WalksOver g setting own start (step descend r function site) fun lead =>
        g.SiteLead setting.builtins r.name function site lead ∨ more r.name function site lead)
    (levels : Nat) : DescendsOver g setting own start (followBy setting step levels) := by
  induction levels with
  | zero =>
    intro r _ t ht
    exact ⟨{ t with truncation := some .depth }, rfl, ⟨ht.alike, ht.sites, ht.targets⟩,
      .of_cut rfl rfl rfl, nofun⟩
  | succ levels ih =>
    intro r hr
    refine expand_walks hp hr fun producer hh hleads => ?_
    have hordinary : producer.type ≠ .program → ∀ lead,
        g.ProducerLead setting.builtins r.name producer lead →
        g.LeadsOver own (r.name, r.context.id) lead :=
      fun hn lead h => hleads hn lead ((hown _ _ _).mpr (.inl h))
    have hwalk := producerStep_walks hp ih hr hh hordinary fun hn function site hs hb =>
      hstep ih hr hs fun lead h => h.elim (fun h => hordinary hn lead (hb.lead h))
        fun h => hleads hn lead ((hown _ _ _).mpr (.inr ⟨function, site, hb, h⟩))
    exact hwalk.imp fun lead h => ⟨h.1, (hown _ _ _).mp h.2⟩

theorem follow_walks (hp : g.Plain) (levels : Nat) :
    Descends g setting start (follow setting levels) := by
  refine followBy_walks hp (fun _ _ _ _ => False) (by simp)
    (fun hd r hr function site hs hl => ?_) levels
  exact (siteStep_walks hp hd hr hs fun lead h => hl lead (.inl h)).imp fun lead h =>
    h.resolve_right id

/-- The first request of a query for a name. -/
theorem request_walks (hp : g.Plain) {name : String} {context : NodeId}
    (hn : g.store.hasNode context = true) {descend : Request → Trace Unit}
    (hd : DescendsOver g setting own (name, context) descend) :
    WalksOver g setting own (name, context)
      (ask (·.node context) >>= fun node => descend { name, context := node, scope := "", depth := 0 })
      (· = .pair name context) := by
  obtain ⟨node, hnode, hstored⟩ := (Service.node_agree hp.answers fun _ => hn).exists_ok
  obtain rfl : node.id = context := Store.id_of_node? hstored
  have hreached : ReachedOver g own (name, node.id)
      { name, context := node, scope := "", depth := 0 } :=
    ⟨rfl, .inl rfl, Store.holds_of_node? hstored, .refl⟩
  exact .after (consults_ask fun a => (Service.node_agree a nofun).eq) hnode (hd _ hreached)

/-- What a query that is not cut short has found: all that `start` leads to, and nothing else beside
the slices that were there before. -/
structure FindsOver (g : Service) (setting : Setting) (own : String → Node → Lead → Prop)
    (start : String × NodeId) (slices : SliceSet) (t : Tracer) : Prop where
  visited : ∀ pair, pair ∈ t.visited ↔ g.ReachesOver own start pair
  kept : slices.slices ⊆ t.slices.slices
  shown : ∀ slice ∈ t.slices.slices, slice ∈ slices.slices ∨ MayShow g setting own start slice
  met : ∀ pair lead, g.ReachesOver own start pair → g.LeadsOver own pair lead →
    lead.Met setting.options t

theorem answering_finds (hp : g.Plain) {follow : Nat → Request → Trace Unit} {name : String}
    {context : NodeId} (hn : g.store.hasNode context = true)
    (hf : ∀ levels, DescendsOver g setting own (name, context) (follow levels)) {t : Tracer}
    (ht : t.Honest g) (deadline : Deadline) (slices : SliceSet) :
    ∃ t', (answering setting follow (.name name) context).run.run (t.started deadline slices) =
        (.ok (), t') ∧
      (t'.truncation = none → FindsOver g setting own (name, context) slices t') := by
  obtain ⟨t', hrun, -, ha, hmet⟩ := request_walks hp hn (hf _) _ (ht.started deadline slices)
  refine ⟨t', hrun, fun hend => ?_⟩
  have hstart : (name, context) ∈ t'.visited := hmet hend _ rfl
  exact {
    visited := fun pair => ⟨fun hm => (ha.pairs pair hm).resolve_left nofun,
      ha.mem_visited_of_reaches rfl hend hstart⟩
    kept := ha.slices
    shown := ha.shown
    met := fun _ _ hr hl => ha.met_of_reaches rfl hend hstart hr hl }

end Trace

/-- A page with the statements `var b = h(); f(b); function f(p) { p } function h() {}`. -/
def parameterPage : Store :=
  .ofLists
    [{ id := 1, type := .program },
     { id := 2, type := .variableDeclaration, kind := "var", location := "line:1" },
     { id := 3, type := .variableDeclarator }, { id := 4, type := .identifier, code := "b" },
     { id := 5, type := .callExpression }, { id := 6, type := .expressionStatement },
     { id := 7, type := .callExpression }, { id := 8, type := .identifier, code := "f" },
     { id := 9, type := .identifier, code := "b" }, { id := 10, type := .functionDeclaration },
     { id := 11, type := .identifier, code := "f" }, { id := 12, type := .identifier, code := "p" },
     { id := 13, type := .blockStatement }, { id := 14, type := .expressionStatement },
     { id := 15, type := .identifier, code := "p" }, { id := 16, type := .identifier, code := "h" },
     { id := 17, type := .functionDeclaration, location := "line:4" },
     { id := 18, type := .identifier, code := "h" }, { id := 19, type := .blockStatement }]
    [{ source := 1, target := 2, relation := .ast, relationType := "body" },
     { source := 2, target := 3, relation := .ast, relationType := "declarations" },
     { source := 3, target := 4, relation := .ast, relationType := "id" },
     { source := 3, target := 5, relation := .ast, relationType := "init" },
     { source := 5, target := 16, relation := .ast, relationType := "callee" },
     { source := 1, target := 6, relation := .ast, relationType := "body" },
     { source := 6, target := 7, relation := .ast, relationType := "expression" },
     { source := 7, target := 8, relation := .ast, relationType := "callee" },
     { source := 7, target := 9, relation := .ast, relationType := "arguments" },
     { source := 1, target := 10, relation := .ast, relationType := "body" },
     { source := 10, target := 11, relation := .ast, relationType := "id" },
     { source := 10, target := 12, relation := .ast, relationType := "params" },
     { source := 10, target := 13, relation := .ast, relationType := "body" },
     { source := 13, target := 14, relation := .ast, relationType := "body" },
     { source := 14, target := 15, relation := .ast, relationType := "expression" },
     { source := 1, target := 17, relation := .ast, relationType := "body" },
     { source := 17, target := 18, relation := .ast, relationType := "id" },
     { source := 17, target := 19, relation := .ast, relationType := "body" },
     { source := 5, target := 17, relation := .cg },
     { source := 7, target := 10, relation := .cg },
     { source := 2, target := 6, relation := .pdg, arguments := "b" },
     { source := 10, target := 14, relation := .pdg, arguments := "p" }]

namespace parameterPage

def setting : Trace.Setting := ⟨⟨[]⟩, {}⟩

/-- The query for `p` in the body of `f`. -/
def asked : Except GraphFault Unit × Tracer :=
  (Tracer.new parameterPage.service).query setting (.name "p") 14

def declaration : Node :=
  { id := 2, type := .variableDeclaration, kind := "var", location := "line:1" }

/-- The function that `h()` calls. -/
def definition : Node := { id := 17, type := .functionDeclaration, location := "line:4" }

theorem calls_definition : parameterPage.service.Calls 16 definition :=
  ⟨{ source := 5, target := 16, relation := .ast, relationType := "callee" },
    { id := 5, type := .callExpression }, ⟨by decide +kernel, by decide +kernel⟩, rfl, .inl rfl,
    by decide +kernel⟩

end parameterPage

end RequestFlow

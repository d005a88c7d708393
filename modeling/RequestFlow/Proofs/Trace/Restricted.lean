/-
Requests for declarations only. A named owner of `this` is traced to its
declaration, with a request that leaves all other producers out; and a pair that
such a request has expanded counts as visited for every later request, also for
one that asks for all producers.

`queryUntil` is the query stopped where it first asks for all producers of a
pair, so it shows what had been visited by then. A query that ends well and is
not cut short has processed all producers of the pair, if the pair was not
visited before the request, and in any case those that are declarations.
-/
import RequestFlow.Proofs.Footprint
import RequestFlow.Proofs.History
import RequestFlow.Proofs.Trace.Exact

namespace RequestFlow

/-- The request is for all producers of the pair. -/
def Request.AsksAll (pair : String × NodeId) (r : Request) : Prop :=
  (r.name, r.context.id) = pair ∧ r.declarations = false

instance (pair : String × NodeId) (r : Request) : Decidable (r.AsksAll pair) :=
  inferInstanceAs (Decidable (_ ∧ _))

namespace Trace

/-- How a trace ends that is stopped at a request. -/
def stopped : GraphFault := .unavailable "stopped at a request"

/-- Traces a request, up to the first request for all producers of the pair. -/
def followUntil (setting : Setting) (pair : String × NodeId) : (levels : Nat) → Request → Trace Unit
  | 0, r => if r.AsksAll pair then throw stopped else truncate .depth
  | levels + 1, r =>
    let descend := followUntil setting pair levels
    if r.AsksAll pair then throw stopped
    else expand (producerStep setting descend (siteStep setting descend r) r) r

end Trace

/-- A query, up to the first request for all producers of the pair. -/
def Tracer.queryUntil (setting : Trace.Setting) (pair : String × NodeId) (t : Tracer)
    (target : Tracer.Target) (context : NodeId) (slices : SliceSet := {}) :
    Except GraphFault Unit × Tracer :=
  (Trace.answering setting (Trace.followUntil setting pair) target context).run.run
    (t.started setting.options.deadline slices)

/-- The producer has been looked at for a name: its own code is shown, or where it stands for a
function with a parameter of that name, that the name is a parameter. -/
def Service.Processed (g : Service) (options : TraceOptions) (name : String) (producer : Node)
    (t : Tracer) : Prop :=
  ∃ owner, g.parameterOwner? producer = .ok owner ∧ match owner with
    | none => ∃ rendered, g.renderNode producer = .ok rendered ∧
      (Lead.text rendered.code producer.location).Met options t
    | some function => ∃ params, g.parameters function.id = .ok params ∧
      (name ∈ params →
        (Lead.text (name ++ " = " ++ Slice.parameterMark) producer.location).Met options t)

theorem Service.Processed.mono {g : Service} {options : TraceOptions} {name : String}
    {producer : Node} {t t' : Tracer} (hp : g.Processed options name producer t)
    (h : t.Grows t') : g.Processed options name producer t' := by
  obtain ⟨owner, ho, hp⟩ := hp
  refine ⟨owner, ho, ?_⟩
  cases owner with
  | none =>
    obtain ⟨rendered, hr, hmet⟩ := hp
    exact ⟨rendered, hr, h.met hmet⟩
  | some function =>
    obtain ⟨params, hps, hmet⟩ := hp
    exact ⟨params, hps, fun hm => h.met (hmet hm)⟩

namespace Trace

variable {g : Service} {setting : Setting} {pair : String × NodeId} {t t' t'' : Tracer}
  {α β : Type}

/-- From `t` to `t'` nothing is lost, and unless the trace was cut short, the declarations of the
pairs that are new have been processed. -/
structure Gains (g : Service) (setting : Setting) (t t' : Tracer) : Prop extends t.Grows t' where
  declared : t'.truncation = none → ∀ pair ∈ t'.visited, pair ∉ t.visited →
    ∀ producer, g.Produces pair.1 pair.2 producer → producer.type = .variableDeclaration →
      g.Processed setting.options pair.1 producer t'

namespace Gains

theorem of_visited (h : t.Grows t') (hv : t'.visited = t.visited) : Gains g setting t t' where
  toGrows := h
  declared _ _ hm hn := absurd (hv ▸ hm) hn

theorem trans (h : Gains g setting t t') (h' : Gains g setting t' t'') : Gains g setting t t'' where
  toGrows := h.toGrows.trans h'.toGrows
  declared hn pair hm hnew producer hp hd := by
    by_cases hm' : pair ∈ t'.visited
    · exact (h.declared (h'.truncation hn) pair hm' hnew producer hp hd).mono h'.toGrows
    · exact h'.declared hn pair hm hm' producer hp hd

end Gains

/-- The request that a trace was stopped at has been answered: unless the trace was cut short, the
pair is visited, and if it was not visited before, its producers have been processed. -/
def Answered (g : Service) (setting : Setting) (pair : String × NodeId) (stop t : Tracer) : Prop :=
  t.truncation = none → pair ∈ t.visited ∧ (pair ∉ stop.visited →
    ∀ producer, g.Produces pair.1 pair.2 producer → g.Processed setting.options pair.1 producer t)

theorem Answered.mono {stop : Tracer} (ha : Answered g setting pair stop t) (h : t.Grows t') :
    Answered g setting pair stop t' := by
  intro hn
  obtain ⟨hv, hp⟩ := ha (h.truncation hn)
  exact ⟨h.visited hv, fun hnew producer hprod => (hp hnew producer hprod).mono h⟩

/-- From `t`, the trace `m` gains, and `n` does the same, or is stopped at a request that `m`
answers. -/
structure WatchedFrom (g : Service) (setting : Setting) (pair : String × NodeId) (m n : Trace α)
    (t : Tracer) : Prop where
  honest : (m.run.run t).2.Honest g
  gains : ∀ {a t'}, m.run.run t = (.ok a, t') → Gains g setting t t'
  stops : n.run.run t = m.run.run t ∨ ∃ stop, n.run.run t = (.error stopped, stop) ∧
    ∀ {a t'}, m.run.run t = (.ok a, t') → Answered g setting pair stop t'

/-- `n` is the trace `m`, watched for a request for all producers of the pair. -/
def Watched (g : Service) (setting : Setting) (pair : String × NodeId) (m n : Trace α) : Prop :=
  ∀ t : Tracer, t.Honest g → WatchedFrom g setting pair m n t

namespace Watched

/-- A trace that visits no pair. -/
theorem of_visited {m : Trace α}
    (h : ∀ t : Tracer, t.Honest g → (m.run.run t).2.Honest g ∧ t.Grows (m.run.run t).2 ∧
      (m.run.run t).2.visited = t.visited) : Watched g setting pair m m := by
  intro t ht
  obtain ⟨hh, hg, hv⟩ := h t ht
  refine ⟨hh, fun hrun => ?_, .inl rfl⟩
  rw [hrun] at hg hv
  exact .of_visited hg hv

theorem of_consults {m : Trace α} {x : Except GraphFault α} (hm : Consults g m x) :
    Watched g setting pair m m := by
  refine of_visited fun t ht => ?_
  obtain ⟨t', hrun, hh, hs⟩ := hm t ht
  rw [hrun]
  exact ⟨hh, .of_sameMarks hs, hs.visited⟩

theorem bind {m n : Trace α} {f f' : α → Trace β} (hm : Watched g setting pair m n)
    (hf : ∀ a, Watched g setting pair (f a) (f' a)) :
    Watched g setting pair (m >>= f) (n >>= f') := by
  intro t ht
  obtain ⟨hh, hgains, hstops⟩ := hm t ht
  generalize hrun : m.run.run t = ended at hh hgains hstops
  obtain ⟨outcome, t₁⟩ := ended
  cases outcome with
  | error fault =>
    have hfail : (m >>= f).run.run t = (.error fault, t₁) := by rw [run_bind, hrun]
    refine ⟨by rw [hfail]; exact hh, (nomatch hfail.symm.trans ·), ?_⟩
    rcases hstops with hsame | ⟨stop, hstop, -⟩
    · exact .inl (by rw [hfail, run_bind, hsame])
    · exact .inr ⟨stop, by rw [run_bind, hstop], (nomatch hfail.symm.trans ·)⟩
  | ok a =>
    have hnext : (m >>= f).run.run t = (f a).run.run t₁ := by rw [run_bind, hrun]
    obtain ⟨hh', hgains', hstops'⟩ := hf a t₁ hh
    refine ⟨by rw [hnext]; exact hh', fun h => (hgains rfl).trans (hgains' (hnext ▸ h)), ?_⟩
    rcases hstops with hsame | ⟨stop, hstop, hanswered⟩
    · -- Not stopped so far, `n` goes on from the same tracer.
      have hnext' : (n >>= f').run.run t = (f' a).run.run t₁ := by rw [run_bind, hsame]
      rw [hnext, hnext']
      exact hstops'
    · -- What `m` has answered stays answered.
      refine .inr ⟨stop, by rw [run_bind, hstop], fun h => ?_⟩
      exact (hanswered rfl).mono (hgains' (hnext ▸ h)).toGrows

theorem resolve (this : NodeId) :
    Watched g setting pair (resolve setting.options this) (resolve setting.options this) := by
  refine of_visited fun t ht => ?_
  rw [run_resolve]
  exact ⟨ht.resolved setting.options.materialise this, ⟨fun _ h => h, fun _ h => h, id⟩, rfl⟩

theorem emit (slice : Slice) :
    Watched g setting pair (emit setting.options slice) (emit setting.options slice) := by
  refine of_visited fun t ht => ?_
  exact ⟨⟨ht.alike, ht.sites, ht.targets⟩, ⟨fun _ h => h, t.slices.subset_push _, id⟩, rfl⟩

theorem truncate (reason : Truncation) :
    Watched g setting pair (truncate reason) (truncate reason) := by
  refine of_visited fun t ht => ?_
  exact ⟨⟨ht.alike, ht.sites, ht.targets⟩, ⟨fun _ h => h, fun _ h => h, nofun⟩, rfl⟩

theorem congruence (g : Service) (setting : Setting) (pair : String × NodeId) :
    Congruence setting (Watched g setting pair) where
  pure _ := of_consults .pure
  bind := bind
  ask _ := of_visited fun t ht => ⟨ht, .of_sameMarks (.refl t), rfl⟩
  callSites function := of_consults (consults_callSites function)
  callTarget? call := of_consults (consults_callTarget? call)
  emit := emit
  resolve := resolve

end Watched

/-! ## Producers -/

/-- A question on the way of a trace that ends well has an answer, the one of the graph at first. -/
theorem exists_of_run_ask {question : Service → Except GraphFault α} {f : α → Trace β} {b : β}
    (hq : question g = question t.graph)
    (hrun : (ask question >>= f).run.run t = (.ok b, t')) :
    ∃ a, question g = .ok a ∧ (f a).run.run t = (.ok b, t') := by
  obtain ⟨a, _, hask, hrest⟩ := exists_of_run_bind hrun
  rw [run_ask, ← hq] at hask
  obtain ⟨hanswer, rfl⟩ := Prod.mk.inj hask
  exact ⟨a, hanswer, hrest⟩

/-- What is emitted stays shown. -/
theorem met_of_run_emit {m n : Trace Unit} (hm : Watched g setting pair m n) {slice : Slice}
    {code scope : String} (hs : IsScope scope) (hc : slice.code = inScope scope code)
    (ht : t.Honest g)
    (hrun : (emit setting.options slice >>= fun _ => m).run.run t = (.ok (), t')) :
    (Lead.text code slice.location).Met setting.options t' := by
  obtain ⟨shown, hloc, hshows, hemit⟩ := exists_run_emit hs hc setting.options t
  rw [run_bind, hemit] at hrun
  have ht' : ({ t with slices := t.slices.push shown } : Tracer).Honest g :=
    ⟨ht.alike, ht.sites, ht.targets⟩
  rw [← hloc]
  exact ((hm _ ht').gains hrun).met (met_push hshows t)

section

variable {descend descend' : Request → Trace Unit}
  (hd : ∀ q, IsScope q.scope → Watched g setting pair (descend q) (descend' q)) {r : Request}
  (hr : IsScope r.scope)
include hd hr

theorem producerStep_watched (producer : Node) :
    Watched g setting pair (producerStep setting descend (siteStep setting descend r) r producer)
      (producerStep setting descend' (siteStep setting descend' r) r producer) := by
  have hR := Watched.congruence g setting pair
  exact hR.producerStep hd hr (fun function site => hR.siteStep isScope_callScope hd function site)
    producer

theorem producerStep_processed {producer : Node} (hh : g.store.Holds producer)
    (hp : producer.type ≠ .program) (ht : t.Honest g)
    (hrun : (producerStep setting descend (siteStep setting descend r) r producer).run.run t =
      (.ok (), t')) :
    g.Processed setting.options r.name producer t' := by
  have hR := Watched.congruence g setting pair
  rw [producerStep, if_neg hp] at hrun
  obtain ⟨owner, ho, hrun⟩ :=
    exists_of_run_ask (Service.parameterOwner?_agree ht.alike hh).eq hrun
  refine ⟨owner, ho, ?_⟩
  cases owner with
  | none =>
    obtain ⟨rendered, hrend, hrun⟩ :=
      exists_of_run_ask (Service.renderNode_agree ht.alike hh false).eq hrun
    exact ⟨rendered, hrend, met_of_run_emit (hR.mentions hd hr producer _) hr rfl ht hrun⟩
  | some function =>
    obtain ⟨params, hps, hrun⟩ :=
      exists_of_run_ask (Service.parameters_agree ht.alike function.id).eq hrun
    refine ⟨params, hps, fun hm => ?_⟩
    rw [if_pos (by simpa using hm)] at hrun
    have hsites := hR.bind (hR.callSites function.id) fun sites =>
      hR.forM (l := sites) fun site _ => hR.siteStep isScope_callScope hd (r := r) function site
    exact met_of_run_emit hsites hr rfl ht hrun

end

/-! ## Requests -/

section

variable {r : Request} {step step' : Node → Trace Unit}
  (hstep : ∀ producer, Watched g setting pair (step producer) (step' producer))
  (hprocessed : ∀ {producer t t'}, g.store.Holds producer → producer.type ≠ .program →
    t.Honest g → (step producer).run.run t = (.ok (), t') →
    g.Processed setting.options r.name producer t')
include hstep hprocessed

/-- All producers on a list are processed. -/
theorem forM_processed {producers : List Node} (hh : ∀ producer ∈ producers, g.store.Holds producer)
    (ht : t.Honest g) (hrun : (producers.forM step).run.run t = (.ok (), t')) :
    ∀ producer ∈ producers, producer.type ≠ .program →
      g.Processed setting.options r.name producer t' := by
  have hR := Watched.congruence g setting pair
  induction producers generalizing t with
  | nil => simp
  | cons first rest ih =>
    obtain ⟨_, t₁, hfirst, hrest⟩ := exists_of_run_bind hrun
    have ht₁ : t₁.Honest g := by
      have hnext := (hstep first t ht).honest
      rwa [hfirst] at hnext
    have hgains : Gains g setting t₁ t' :=
      (hR.forM (fun producer _ => hstep producer) t₁ ht₁).gains hrest
    intro producer hm hp
    rcases List.mem_cons.mp hm with rfl | hm
    · exact (hprocessed (hh producer List.mem_cons_self) hp ht hfirst).mono hgains.toGrows
    · exact ih (fun producer hm => hh producer (List.mem_cons_of_mem _ hm)) ht₁ hrest producer hm hp

/-- An expansion that ends well has processed the producers that were asked for. -/
theorem expansion_processed (ht : t.Honest g)
    (hrun : (expansion step r).run.run t = (.ok (), t')) :
    ∀ producer, g.Produces r.name r.context.id producer →
      (r.declarations = true → producer.type = .variableDeclaration) →
      g.Processed setting.options r.name producer t' := by
  have hagree := Service.producers_agree ht.alike nofun r.name r.context.id r.declarations
  obtain ⟨producers, hps, hrun⟩ := exists_of_run_ask hagree.eq hrun
  intro producer hprod hdecl
  obtain ⟨hm, hne⟩ := (Service.mem_producers hps).mpr ⟨hprod, hdecl⟩
  exact forM_processed hstep hprocessed (hagree.of_ok hps).2 ht hrun producer hm hne

/-- A request that is expanded is answered. -/
theorem expand_answers (ht : t.Honest g)
    (hrun : (expand step r).run.run t = (.ok (), t')) (hn : t'.truncation = none) :
    (r.name, r.context.id) ∈ t'.visited ∧ ((r.name, r.context.id) ∉ t.visited →
      ∀ producer, g.Produces r.name r.context.id producer →
        (r.declarations = true → producer.type = .variableDeclaration) →
        g.Processed setting.options r.name producer t') := by
  have hR := Watched.congruence g setting pair
  rw [run_expand] at hrun
  split at hrun
  · cases hrun
    cases hn
  split at hrun
  · next hv =>
    cases hrun
    exact ⟨hv, fun hnew => absurd hv hnew⟩
  · have hgains := (hR.expansion hstep _ (ht.tick.visit r)).gains hrun
    exact ⟨hgains.visited List.mem_cons_self,
      fun _ => expansion_processed hstep hprocessed (ht.tick.visit r) hrun⟩

theorem expand_watched : Watched g setting pair (expand step r) (expand step' r) := by
  intro t ht
  by_cases hx : t.deadline.hasPassed = true
  · have hcut : ∀ step, (expand step r).run.run t =
        (.ok (), { t.tick with truncation := some .deadline }) := fun _ => by
      rw [run_expand, if_pos hx]
    refine ⟨by rw [hcut]; exact ⟨ht.alike, ht.sites, ht.targets⟩, fun h => ?_,
      .inl ((hcut step').trans (hcut step).symm)⟩
    cases (hcut step).symm.trans h
    exact .of_visited ⟨fun _ h => h, fun _ h => h, nofun⟩ rfl
  by_cases hv : (r.name, r.context.id) ∈ t.visited
  · have hskip : ∀ step, (expand step r).run.run t = (.ok (), t.tick) := fun _ => by
      rw [run_expand, if_neg hx, if_pos hv]
    refine ⟨by rw [hskip]; exact ht.tick, fun h => ?_, .inl ((hskip step').trans (hskip step).symm)⟩
    cases (hskip step).symm.trans h
    exact .of_visited (.of_eq rfl rfl rfl) rfl
  · have hnext : ∀ step, (expand step r).run.run t =
        (expansion step r).run.run (t.tick.visit r) := fun _ => by
      rw [run_expand, if_neg hx, if_neg hv]
    have hR := Watched.congruence g setting pair
    obtain ⟨hh, hgains, hstops⟩ := hR.expansion hstep _ (ht.tick.visit r)
    refine ⟨by rw [hnext]; exact hh, fun h => ?_, ?_⟩
    · have hg := hgains ((hnext step).symm.trans h)
      refine ⟨⟨fun _ hm => hg.visited (List.mem_cons_of_mem _ hm), hg.slices, hg.truncation⟩, ?_⟩
      intro hn other hm hnew producer hprod hdecl
      by_cases hsame : other = (r.name, r.context.id)
      · subst hsame
        exact (expand_answers hstep hprocessed ht h hn).2 hv producer hprod fun _ => hdecl
      · refine hg.declared hn other hm ?_ producer hprod hdecl
        simp [Tracer.visit, Tracer.tick, hsame, hnew]
    · rw [hnext, hnext]
      rcases hstops with hsame | ⟨stop, hstop, hanswered⟩
      · exact .inl hsame
      · exact .inr ⟨stop, hstop, hanswered⟩

end

theorem follow_watched (levels : Nat) {r : Request} (hr : IsScope r.scope) :
    Watched g setting pair (follow setting levels r) (followUntil setting pair levels r) := by
  induction levels generalizing r with
  | zero =>
    have hcut : Watched g setting pair (truncate .depth) (truncate .depth) := .truncate .depth
    rw [followUntil]
    split
    · refine fun t ht => ⟨(hcut t ht).honest, (hcut t ht).gains, .inr ⟨t, rfl, fun h => ?_⟩⟩
      cases h
      exact fun hn => by cases hn
    · exact hcut
  | succ levels ih =>
    have hstep := producerStep_watched (fun q hq => ih (r := q) hq) hr
    have hprocessed : ∀ {producer t t'}, g.store.Holds producer → producer.type ≠ .program →
        t.Honest g → (producerStep setting (follow setting levels)
          (siteStep setting (follow setting levels) r) r producer).run.run t = (.ok (), t') →
        g.Processed setting.options r.name producer t' :=
      fun hh hp ht hrun => producerStep_processed (fun q hq => ih (r := q) hq) hr hh hp ht hrun
    have hexpand := expand_watched hstep hprocessed
    rw [followUntil]
    split
    · next hall =>
      obtain ⟨rfl, hvalue⟩ := hall
      refine fun t ht => ⟨(hexpand t ht).honest, (hexpand t ht).gains, .inr ⟨t, rfl, fun h => ?_⟩⟩
      intro hn
      obtain ⟨hv, hp⟩ := expand_answers hstep hprocessed ht h hn
      exact ⟨hv, fun hnew producer hprod => hp hnew producer hprod (by simp [hvalue])⟩
    · exact hexpand

theorem answering_watched (setting : Setting) (pair : String × NodeId) (target : Tracer.Target)
    (context : NodeId) :
    Watched g setting pair (answering setting (follow setting) target context)
      (answering setting (followUntil setting pair) target context) :=
  (Watched.congruence g setting pair).answering (.inl rfl) _ _
    (fun levels _ hq => follow_watched levels hq) target context

end Trace

namespace Tracer

variable {g : Service} {t : Tracer}

theorem honest_after (ht : t.Honest g) (setting : Trace.Setting) (queries : List Query) :
    (t.after setting queries).Honest g := by
  induction queries generalizing t with
  | nil => exact ht
  | cons q rest ih =>
    have hquery : (t.query setting q.target q.context q.slices).2.Honest g := by
      have hw := Trace.answering_watched setting ("", 0) q.target q.context _
        (ht.started setting.options.deadline q.slices)
      exact hw.honest
    exact ih hquery

/-- **A restricted request hides only producers that it leaves out.** Take a query that ends well and
is not cut short, after any earlier queries, and a pair of which it asks for all producers. A producer
of the pair has been processed by the end, if it is a declaration, or if the pair had not been visited
before the query first asked for all producers. -/
theorem query_processes (g : Service) (setting : Trace.Setting) (earlier : List Query)
    (target : Target) (context : NodeId) (slices : SliceSet) {t' stop : Tracer}
    {pair : String × NodeId}
    (hquery : ((Tracer.new g).after setting earlier).query setting target context slices =
      (.ok (), t'))
    (hn : t'.truncation = none)
    (hstop : ((Tracer.new g).after setting earlier).queryUntil setting pair target context slices =
      (.error Trace.stopped, stop))
    {producer : Node} (hp : g.Produces pair.1 pair.2 producer)
    (hfree : pair ∉ stop.visited ∨ producer.type = .variableDeclaration) :
    g.Processed setting.options pair.1 producer t' := by
  have ht := (honest_after (honest_new g) setting earlier).started setting.options.deadline slices
  have hw := Trace.answering_watched setting pair target context _ ht
  rw [query] at hquery
  rw [queryUntil] at hstop
  have hgains := hw.gains hquery
  rcases hw.stops with hsame | ⟨stop', hstop', hanswered⟩
  · -- Without the request both end alike, and the query ends well.
    cases hstop.symm.trans (hsame.trans hquery)
  · cases hstop.symm.trans hstop'
    obtain ⟨hv, hall⟩ := hanswered hquery hn
    rcases hfree with hnew | hdecl
    · exact hall hnew producer hp
    · exact hgains.declared hn pair hv nofun producer hp hdecl

end Tracer

/-- A page with the statements `o = location.hash; function send() { x = this.u + r; fetch(x) }
r = send.call(o)`, or with the operands `r + this.u`. -/
def receiverPage (thisFirst : Bool) : Store :=
  .ofLists
    [{ id := 1, type := .program },
     { id := 2, type := .expressionStatement, location := "line:1" },
     { id := 3, type := .assignmentExpression, code := "=" },
     { id := 4, type := .identifier, code := "o" },
     { id := 5, type := .memberExpression },
     { id := 6, type := .identifier, code := "location" },
     { id := 7, type := .identifier, code := "hash" },
     { id := 8, type := .functionDeclaration }, { id := 9, type := .identifier, code := "send" },
     { id := 10, type := .blockStatement },
     { id := 11, type := .expressionStatement, location := "line:2" },
     { id := 12, type := .assignmentExpression, code := "=" },
     { id := 13, type := .identifier, code := "x" },
     { id := 14, type := .binaryExpression, code := "+" },
     { id := 15, type := .memberExpression }, { id := 16, type := .thisExpression },
     { id := 17, type := .identifier, code := "u" },
     { id := 18, type := .identifier, code := "r" },
     { id := 19, type := .expressionStatement, location := "line:3" },
     { id := 20, type := .callExpression }, { id := 21, type := .identifier, code := "fetch" },
     { id := 22, type := .identifier, code := "x" },
     { id := 23, type := .expressionStatement, location := "line:4" },
     { id := 24, type := .assignmentExpression, code := "=" },
     { id := 25, type := .identifier, code := "r" },
     { id := 26, type := .callExpression }, { id := 27, type := .memberExpression },
     { id := 28, type := .identifier, code := "send" },
     { id := 29, type := .identifier, code := "call" },
     { id := 30, type := .identifier, code := "o" }]
    [{ source := 1, target := 2, relation := .ast, relationType := "body" },
     { source := 2, target := 3, relation := .ast, relationType := "expression" },
     { source := 3, target := 4, relation := .ast, relationType := "left" },
     { source := 3, target := 5, relation := .ast, relationType := "right" },
     { source := 5, target := 6, relation := .ast, relationType := "object" },
     { source := 5, target := 7, relation := .ast, relationType := "property" },
     { source := 1, target := 8, relation := .ast, relationType := "body" },
     { source := 8, target := 9, relation := .ast, relationType := "id" },
     { source := 8, target := 10, relation := .ast, relationType := "body" },
     { source := 10, target := 11, relation := .ast, relationType := "body" },
     { source := 11, target := 12, relation := .ast, relationType := "expression" },
     { source := 12, target := 13, relation := .ast, relationType := "left" },
     { source := 12, target := 14, relation := .ast, relationType := "right" },
     { source := 14, target := 15, relation := .ast,
       relationType := if thisFirst then "left" else "right" },
     { source := 15, target := 16, relation := .ast, relationType := "object" },
     { source := 15, target := 17, relation := .ast, relationType := "property" },
     { source := 14, target := 18, relation := .ast,
       relationType := if thisFirst then "right" else "left" },
     { source := 10, target := 19, relation := .ast, relationType := "body" },
     { source := 19, target := 20, relation := .ast, relationType := "expression" },
     { source := 20, target := 21, relation := .ast, relationType := "callee" },
     { source := 20, target := 22, relation := .ast, relationType := "arguments" },
     { source := 1, target := 23, relation := .ast, relationType := "body" },
     { source := 23, target := 24, relation := .ast, relationType := "expression" },
     { source := 24, target := 25, relation := .ast, relationType := "left" },
     { source := 24, target := 26, relation := .ast, relationType := "right" },
     { source := 26, target := 27, relation := .ast, relationType := "callee" },
     { source := 27, target := 28, relation := .ast, relationType := "object" },
     { source := 27, target := 29, relation := .ast, relationType := "property" },
     { source := 26, target := 30, relation := .ast, relationType := "arguments" },
     { source := 2, target := 23, relation := .pdg, arguments := "o" },
     { source := 23, target := 11, relation := .pdg, arguments := "r" },
     { source := 11, target := 19, relation := .pdg, arguments := "x" }]

namespace receiverPage

/-- Tracing without layout, where only `location` is taken for given. -/
def setting : Trace.Setting := ⟨⟨["location"]⟩, { layout := false }⟩

/-- The query for `x` at `fetch(x)`. -/
def asked (thisFirst : Bool) : Except GraphFault Unit × Tracer :=
  (Tracer.new (receiverPage thisFirst).service).query setting (.name "x") 19

/-- The query, up to where it asks for all producers of `o` at `r = send.call(o)`. -/
def askedUntil (thisFirst : Bool) : Except GraphFault Unit × Tracer :=
  (Tracer.new (receiverPage thisFirst).service).queryUntil setting ("o", 23) (.name "x") 19

/-- The statement `o = location.hash`. -/
def source : Node := { id := 2, type := .expressionStatement, location := "line:1" }

theorem produces_source (thisFirst : Bool) :
    (receiverPage thisFirst).service.Produces "o" 23 source := by
  refine ⟨by decide, { source := 2, target := 23, relation := .pdg, arguments := "o" }, ?_, rfl, rfl,
    by decide +kernel, ?_⟩
  · cases thisFirst <;> decide +kernel
  · cases thisFirst <;> decide +kernel

end receiverPage

/-- With `r + this.u` the query comes to `o` through `r` first, and finds its source. -/
theorem Tracer.query_processes_receiverPage :
    (receiverPage.asked false).1 = .ok () ∧ (receiverPage.asked false).2.truncation = none ∧
    (receiverPage.askedUntil false).1 = .error Trace.stopped ∧
    ("o", 23) ∉ (receiverPage.askedUntil false).2.visited ∧
    (receiverPage false).service.Processed receiverPage.setting.options "o" receiverPage.source
      (receiverPage.asked false).2 := by
  have hend : (receiverPage.asked false).1 = .ok () ∧
      (receiverPage.asked false).2.truncation = none := by decide +kernel
  have hfirst : (receiverPage.askedUntil false).1 = .error Trace.stopped ∧
      ("o", 23) ∉ (receiverPage.askedUntil false).2.visited := by decide +kernel
  obtain ⟨hok, hn⟩ := hend
  obtain ⟨hstop, hnew⟩ := hfirst
  have hquery : receiverPage.asked false = (.ok (), (receiverPage.asked false).2) := by rw [← hok]
  have hat : receiverPage.askedUntil false =
      (.error Trace.stopped, (receiverPage.askedUntil false).2) := by rw [← hstop]
  exact ⟨hok, hn, hstop, hnew, query_processes (receiverPage false).service receiverPage.setting []
    (.name "x") 19 {} hquery hn hat (receiverPage.produces_source false) (.inl hnew)⟩

/-- With `this.u + r` it comes to `o` as the owner of `this` first, asks for declarations only, and
misses its source: nothing of the first line is shown. -/
theorem Tracer.query_receiverPage_hidden :
    (receiverPage true).Closed ∧ (receiverPage true).AstAcyclic ∧
    (receiverPage.asked true).1 = .ok () ∧ (receiverPage.asked true).2.truncation = none ∧
    (receiverPage.askedUntil true).1 = .error Trace.stopped ∧
    (receiverPage true).service.Produces "o" 23 receiverPage.source ∧
    ¬ (receiverPage true).service.Processed receiverPage.setting.options "o" receiverPage.source
      (receiverPage.asked true).2 := by
  have hend : (receiverPage.asked true).1 = .ok () ∧
      (receiverPage.asked true).2.truncation = none ∧
      (receiverPage.askedUntil true).1 = .error Trace.stopped ∧
      ∀ slice ∈ (receiverPage.asked true).2.slices.slices, slice.location ≠ "line:1" := by
    decide +kernel
  obtain ⟨hok, hn, hstop, hlines⟩ := hend
  refine ⟨by decide +kernel, Store.astAcyclic_of_lt (by decide +kernel), hok, hn, hstop,
    receiverPage.produces_source true, ?_⟩
  rintro ⟨owner, ho, hp⟩
  have hnone : (receiverPage true).service.parameterOwner? receiverPage.source = .ok none := rfl
  cases hnone.symm.trans ho
  obtain ⟨_, -, slice, hm, -, hloc⟩ := hp
  exact hlines slice hm hloc

end RequestFlow

/-
The questions that a trace puts to the graph, on services that answer alike. A
tracer asks a graph in which owners of `this` may have been written since, and
answers from its notes where it can; either way the answer is the one that the
graph gave at first.
-/
import RequestFlow.Proofs.Call.Binding
import RequestFlow.Trace.Tracer

namespace RequestFlow

namespace Service

variable {mode : Mode} {g h : Service}

theorem producers_agree (a : Alike mode g h) (hc : mode = .total → g.store.Closed) (name : String)
    (context : NodeId) (declarations : Bool) :
    Agree mode (fun nodes => ∀ node ∈ nodes, g.store.Holds node)
      (g.producers name context declarations) (h.producers name context declarations) := by
  unfold producers
  refine (incoming_agree a context (by simp)).bind fun edges he => ?_
  have hnodes : Agree mode (fun nodes => ∀ node ∈ nodes, g.store.Holds node)
      ((edges.filter (Text.trim ·.arguments == name)).mapM fun edge => g.node edge.source)
      ((edges.filter (Text.trim ·.arguments == name)).mapM fun edge => h.node edge.source) := by
    refine .mapM fun edge hm => ?_
    have hedge := (Store.mem_incoming.mp (he ▸ (List.mem_filter.mp hm).1)).1
    exact (node_agree a fun ht => (hc ht edge hedge).1).imp fun _ hn => Store.holds_of_node? hn
  exact hnodes.bind fun nodes hn => .answer fun node hm => hn node (List.mem_filter.mp hm).1

theorem parameterOwner?_agree (a : Alike mode g h) {producer : Node}
    (hp : g.store.Holds producer) :
    Agree mode (fun r => ∀ function ∈ r, g.store.Holds function) (g.parameterOwner? producer)
      (h.parameterOwner? producer) := by
  unfold parameterOwner?
  split
  · exact .answer (by simpa using hp)
  split
  · refine (astParent?_agree a producer.id).bind fun r hr => .answer fun function hf => ?_
    obtain ⟨hm, -⟩ := Option.filter_eq_some_iff.mp hf
    obtain ⟨p, hp, rfl⟩ := Option.map_eq_some_iff.mp hm
    exact (hr p hp).holds
  · exact .answer (by simp)

/-- `producer` stands for the parameters of `function`: it is that function, or its body. -/
inductive StandsFor (g : Service) (producer : Node) : Node → Prop
  | itself (hf : producer.type.isFunction = true) : StandsFor g producer producer
  | body {edge function} (hb : producer.type = .blockStatement)
    (hp : g.FirstParent producer.id edge function) (hf : function.type.isFunction = true) :
    StandsFor g producer function

theorem StandsFor.unique {producer function function' : Node} (h : g.StandsFor producer function)
    (h' : g.StandsFor producer function') : function = function' := by
  cases h with
  | itself hf =>
    cases h' with
    | itself => rfl
    | body hb => rw [hb] at hf; cases hf
  | body hb hp =>
    cases h' with
    | itself hf => rw [hb] at hf; cases hf
    | body _ hp' => exact hp.unique hp'

theorem parameterOwner?_eq_some_iff {producer : Node} {r : Option Node}
    (h : g.parameterOwner? producer = .ok r) {function : Node} :
    r = some function ↔ g.StandsFor producer function := by
  unfold parameterOwner? at h
  split at h
  · next hf =>
    cases h
    constructor
    · rintro ⟨⟩
      exact .itself hf
    · rintro (_ | ⟨hb, -, -⟩)
      · rfl
      · rw [hb] at hf
        cases hf
  next hf =>
  split at h
  · next hb =>
    obtain ⟨parent, hp, h⟩ := exists_of_bind h
    cases h
    have hparent : ∀ function, parent.map (·.2) = some function ↔
        ∃ edge, g.FirstParent producer.id edge function := by
      intro function
      simp only [← astParent?_eq_some_iff hp, Option.map_eq_some_iff, Prod.exists,
        exists_eq_right]
    rw [Option.filter_eq_some_iff, hparent]
    constructor
    · rintro ⟨⟨edge, hp⟩, hf⟩
      exact .body hb hp hf
    · rintro (hf' | ⟨-, hp, hf'⟩)
      · exact absurd hf' hf
      · exact ⟨⟨_, hp⟩, hf'⟩
  · next hb =>
    cases h
    refine iff_of_false nofun ?_
    rintro (hf' | ⟨hb', -, -⟩)
    · exact hf hf'
    · exact hb hb'

theorem firstFunction?_agree (a : Alike mode g h) {edges : List Edge}
    (he : mode = .total → ∀ edge ∈ edges, g.store.hasNode edge.target = true) :
    Agree mode (fun r => ∀ target ∈ r, g.store.hasNode target = true) (g.firstFunction? edges)
      (h.firstFunction? edges) := by
  induction edges with
  | nil => exact .answer (by simp)
  | cons edge rest ih =>
    refine (node_agree a fun ht => he ht edge List.mem_cons_self).bind fun node hn => ?_
    split
    · exact .answer (by simpa using Store.hasNode_iff.mpr ⟨node, hn⟩)
    · exact ih fun ht e hm => he ht e (List.mem_cons_of_mem _ hm)

/-- The first function that edges lead to. -/
def functionOf? (g : Service) (edges : List Edge) : Option Node :=
  edges.findSome? fun edge => (g.store.node? edge.target).filter (·.type.isFunction)

theorem firstFunction?_eq {edges : List Edge} {r : Option NodeId}
    (h : g.firstFunction? edges = .ok r) :
    r = (g.functionOf? edges).map (·.id) := by
  induction edges with
  | nil =>
    cases h
    rfl
  | cons edge rest ih =>
    obtain ⟨node, hn, h⟩ := exists_of_bind h
    have hstored := node?_of_node hn
    rw [functionOf?, List.findSome?_cons, hstored, Option.filter_some]
    split at h
    · next hf =>
      cases h
      rw [if_pos hf, Option.map_some, Store.id_of_node? hstored]
    · next hf =>
      rw [if_neg hf]
      exact ih h

theorem functionOf?_stored {edges : List Edge} {function : Node}
    (h : g.functionOf? edges = some function) : g.store.Holds function := by
  obtain ⟨edge, -, hf⟩ := List.exists_of_findSome?_eq_some h
  exact Store.holds_of_node? (Option.filter_eq_some_iff.mp hf).1

theorem callTarget?_agree (a : Alike mode g h) (hc : mode = .total → g.store.Closed)
    (call : NodeId) :
    Agree mode (fun r => ∀ target ∈ r, g.store.hasNode target = true) (g.callTarget? call)
      (h.callTarget? call) := by
  unfold callTarget?
  refine (outgoing_agree a call (by simp)).bind fun edges he => ?_
  refine firstFunction?_agree a fun ht edge hm => ?_
  exact (hc ht edge (Store.mem_outgoing.mp (he ▸ hm)).1).2

theorem invocation?_agree (a : Alike mode g h) (origin : NodeId) :
    Agree mode (fun _ => True) (g.invocation? origin) (h.invocation? origin) := by
  unfold invocation?
  refine (astParent?_agree a origin).bind fun r _ => ?_
  split
  · exact .answer trivial
  · split <;> exact .answer trivial

/-- The definition that is invoked where `origin` is the callee of a call. -/
def calledDefinition? (g : Service) (origin : NodeId) : Except GraphFault (Option Node) := do
  match ← g.invocation? origin with
  | none => return none
  | some call => match ← g.callTarget? call with
    | none => return none
    | some target => return some (← g.node target)

theorem calledDefinition?_agree (a : Alike mode g h) (hc : mode = .total → g.store.Closed)
    (origin : NodeId) :
    Agree mode (fun r => ∀ definition ∈ r, g.store.Holds definition) (g.calledDefinition? origin)
      (h.calledDefinition? origin) := by
  unfold calledDefinition?
  refine (invocation?_agree a origin).bind fun r _ => ?_
  split
  · exact .answer (by simp)
  refine (callTarget?_agree a hc _).bind fun r hr => ?_
  split
  · exact .answer (by simp)
  next target =>
  refine (node_agree a fun _ => hr target rfl).bind fun definition hd => .answer ?_
  simpa using Store.holds_of_node? hd

/-- `origin` is the callee of a call or of a construction, and `definition` is the first function that
call edges lead to from there. -/
def Calls (g : Service) (origin : NodeId) (definition : Node) : Prop :=
  ∃ edge call, g.FirstParent origin edge call ∧ edge.relationType = "callee" ∧
    (call.type = .callExpression ∨ call.type = .newExpression) ∧
    g.functionOf? (g.store.outgoing call.id (some .cg)) = some definition

theorem invocation?_eq_some_iff {origin : NodeId} {r : Option NodeId}
    (h : g.invocation? origin = .ok r) {id : NodeId} :
    r = some id ↔ ∃ edge call, g.FirstParent origin edge call ∧ edge.relationType = "callee" ∧
      (call.type = .callExpression ∨ call.type = .newExpression) ∧ call.id = id := by
  obtain ⟨parent, hp, h⟩ := exists_of_bind h
  simp only [← astParent?_eq_some_iff hp]
  split at h
  · cases h
    simp
  · split at h
    · next edge call hcall =>
      cases h
      simp only [Option.some_inj, Prod.mk.injEq]
      grind
    · next edge call hcall =>
      cases h
      grind

/-- What the graph answers for a call is what the call leads to. -/
theorem calledDefinition?_eq_some_iff {origin : NodeId} {r : Option Node}
    (h : g.calledDefinition? origin = .ok r) {definition : Node} :
    r = some definition ↔ g.Calls origin definition := by
  obtain ⟨invocation, hi, h⟩ := exists_of_bind h
  cases invocation with
  | none =>
    cases h
    refine iff_of_false nofun ?_
    rintro ⟨edge, call, hp, hr, ht, -⟩
    cases (invocation?_eq_some_iff hi).mpr ⟨edge, call, hp, hr, ht, rfl⟩
  | some call =>
    obtain ⟨edge, call, hp, hr, ht, rfl⟩ := (invocation?_eq_some_iff hi).mp rfl
    have hcalls : g.Calls origin definition ↔
        g.functionOf? (g.store.outgoing call.id (some .cg)) = some definition := by
      refine ⟨?_, fun hf => ⟨edge, call, hp, hr, ht, hf⟩⟩
      rintro ⟨edge', call', hp', -, -, hf⟩
      obtain rfl : call = call' := hp.unique hp'
      exact hf
    obtain ⟨target, htarget, h⟩ := exists_of_bind h
    obtain ⟨edges, hedges, htarget⟩ := exists_of_bind htarget
    obtain ⟨-, rfl⟩ := (outgoing_agree (Alike.self g) call.id (by simp)).of_ok hedges
    obtain rfl := firstFunction?_eq htarget
    rw [hcalls]
    cases hf : g.functionOf? (g.store.outgoing call.id (some .cg)) with
    | none =>
      rw [hf] at h
      cases h
      rfl
    | some function =>
      rw [hf] at h
      obtain ⟨node, hnode, h⟩ := exists_of_bind h
      cases h
      cases (node?_of_node hnode).symm.trans (functionOf?_stored hf)
      rfl

end Service

/-! ## Notes -/

/-- The tracer is one for `b`: its graph is `b` but for owners written into it, and what it has noted
down are answers of `b`. -/
structure Tracer.Honest (b : Service) (t : Tracer) : Prop where
  alike : Service.Alike .same b t.graph
  sites : ∀ entry ∈ t.sites, b.callSites entry.1 = .ok entry.2
  targets : ∀ entry ∈ t.targets, b.callTarget? entry.1 = .ok entry.2

theorem Tracer.honest_new (b : Service) : (Tracer.new b).Honest b :=
  ⟨.self b, nofun, nofun⟩

namespace Tracer.Honest

variable {b : Service} {t : Tracer} (ht : t.Honest b)
include ht

theorem tick : t.tick.Honest b := ⟨ht.alike, ht.sites, ht.targets⟩

theorem visit (r : Request) : (t.visit r).Honest b := ⟨ht.alike, ht.sites, ht.targets⟩

theorem started (deadline : Deadline) (slices : SliceSet) : (t.started deadline slices).Honest b :=
  ⟨ht.alike, ht.sites, ht.targets⟩

end Tracer.Honest

/-- A tracer with other notes and nothing else changed. -/
structure Tracer.SameMarks (t t' : Tracer) : Prop where
  resolver : t'.resolver = t.resolver
  visited : t'.visited = t.visited
  deadline : t'.deadline = t.deadline
  truncation : t'.truncation = t.truncation
  slices : t'.slices = t.slices

theorem Tracer.SameMarks.refl (t : Tracer) : t.SameMarks t := ⟨rfl, rfl, rfl, rfl, rfl⟩

theorem Tracer.SameMarks.trans {t t' t'' : Tracer} (h : t.SameMarks t') (h' : t'.SameMarks t'') :
    t.SameMarks t'' :=
  ⟨h'.resolver.trans h.resolver, h'.visited.trans h.visited, h'.deadline.trans h.deadline,
    h'.truncation.trans h.truncation, h'.slices.trans h.slices⟩

namespace Trace

variable {α β : Type} {b : Service}

theorem run_ask (question : Service → Except GraphFault α) (t : Tracer) :
    (ask question).run.run t = (question t.graph, t) := rfl

theorem run_get (t : Tracer) : (get : Trace Tracer).run.run t = (.ok t, t) := rfl

theorem run_remembered (table : Tracer → List (NodeId × α))
    (note : List (NodeId × α) → Tracer → Tracer) (question : Service → NodeId → Except GraphFault α)
    (id : NodeId) (t : Tracer) :
    (remembered table note question id).run.run t = match (table t).lookup id with
      | some answer => (.ok answer, t)
      | none => match question t.graph id with
        | .ok answer => (.ok answer, note ((id, answer) :: table t) t)
        | .error fault => (.error fault, t) := by
  unfold remembered
  rw [run_bind, run_get]
  dsimp only
  cases (table t).lookup id with
  | some answer => rfl
  | none =>
    dsimp only
    rw [run_bind, run_ask]
    cases question t.graph id <;> rfl

/-- What notes leave alone is as it was after an answer from them. -/
theorem remembered_keeps_field {β : Type} {field : Tracer → β} {table : Tracer → List (NodeId × α)}
    {note : List (NodeId × α) → Tracer → Tracer}
    (hn : ∀ entries t, field (note entries t) = field t)
    (question : Service → NodeId → Except GraphFault α) (id : NodeId) (t : Tracer) :
    field ((remembered table note question id).run.run t).2 = field t := by
  rw [run_remembered]
  cases (table t).lookup id with
  | some answer => rfl
  | none =>
    cases question t.graph id with
    | error fault => rfl
    | ok answer => exact hn _ t

theorem run_resolve (options : TraceOptions) (this : NodeId) (t : Tracer) :
    (resolve options this).run.run t = ((t.resolver.resolve options.materialise this).1,
      { t with resolver := (t.resolver.resolve options.materialise this).2 }) := by
  unfold resolve
  rw [run_bind, run_get]
  dsimp only
  cases t.resolver.resolve options.materialise this
  rfl

/-- What becomes of a request: it is cut off by the deadline, met again, or marked and expanded. -/
theorem run_expand (step : Node → Trace Unit) (r : Request) (t : Tracer) :
    (expand step r).run.run t =
      if t.deadline.hasPassed = true then (.ok (), { t.tick with truncation := some .deadline })
      else if (r.name, r.context.id) ∈ t.visited then (.ok (), t.tick)
      else (expansion step r).run.run (t.tick.visit r) := by
  have hread : expired.run.run t = (.ok t.deadline.hasPassed, t.tick) := rfl
  rw [expand, run_bind, hread]
  dsimp only
  split
  · rfl
  rw [run_bind, run_get]
  simp only [List.contains_iff_mem, Tracer.tick]
  split <;> rfl

theorem follow_succ (setting : Setting) (levels : Nat) (r : Request) :
    follow setting (levels + 1) r =
      expand (producerStep setting (follow setting levels)
        (siteStep setting (follow setting levels) r) r) r := rfl

/-- The step ends as `x` does, and changes nothing but notes. -/
def Consults (b : Service) (m : Trace α) (x : Except GraphFault α) : Prop :=
  ∀ t : Tracer, t.Honest b → ∃ t' : Tracer, m.run.run t = (x, t') ∧ t'.Honest b ∧ t.SameMarks t'

theorem consults_ask {question : Service → Except GraphFault α}
    (hq : ∀ {g}, Service.Alike .same b g → question b = question g) :
    Consults b (ask question) (question b) := by
  intro t ht
  refine ⟨t, ?_, ht, .refl t⟩
  rw [run_ask, ← hq ht.alike]

theorem consults_render {node : Node} (hn : b.store.Holds node) :
    Consults b (ask (·.renderNode node)) (b.renderNode node) :=
  consults_ask fun a => (Service.renderNode_agree a hn false).eq

/-- A table of true answers serves as well as the graph. -/
theorem consults_remembered {table : Tracer → List (NodeId × α)}
    {note : List (NodeId × α) → Tracer → Tracer} {question : Service → NodeId → Except GraphFault α}
    (ht : ∀ {t : Tracer}, t.Honest b → ∀ entry ∈ table t, question b entry.1 = .ok entry.2)
    (hn : ∀ {t : Tracer} {entries : List (NodeId × α)}, t.Honest b →
      (∀ entry ∈ entries, question b entry.1 = .ok entry.2) →
      (note entries t).Honest b ∧ t.SameMarks (note entries t))
    {id : NodeId} (hq : ∀ {g}, Service.Alike .same b g → question b id = question g id) :
    Consults b (remembered table note question id) (question b id) := by
  intro t hh
  rw [run_remembered, ← hq hh.alike]
  cases hl : (table t).lookup id with
  | some answer =>
    rw [ht hh _ (mem_of_lookup hl)]
    exact ⟨t, rfl, hh, .refl t⟩
  | none =>
    cases ha : question b id with
    | error fault => exact ⟨t, rfl, hh, .refl t⟩
    | ok answer => exact ⟨_, rfl, hn hh (List.forall_mem_cons.mpr ⟨ha, ht hh⟩)⟩

namespace Consults

variable {m : Trace α} {f : α → Trace β} {x : Except GraphFault α} {k : α → Except GraphFault β}

theorem pure {a : α} : Consults b (pure a) (.ok a) := fun t ht => ⟨t, rfl, ht, .refl t⟩

theorem bind (hm : Consults b m x) (hf : ∀ a, x = .ok a → Consults b (f a) (k a)) :
    Consults b (m >>= f) (x >>= k) := by
  intro t ht
  obtain ⟨t₁, h₁, ht₁, hs₁⟩ := hm t ht
  rw [run_bind, h₁]
  cases x with
  | error fault => exact ⟨t₁, rfl, ht₁, hs₁⟩
  | ok a =>
    obtain ⟨t₂, h₂, ht₂, hs₂⟩ := hf a rfl t₁ ht₁
    exact ⟨t₂, h₂, ht₂, hs₁.trans hs₂⟩

end Consults

theorem consults_callSites (function : NodeId) :
    Consults b (callSites function) (b.callSites function) := by
  refine consults_remembered (fun ht => ht.sites) (fun ht he => ?_)
    fun a => (Service.callSites_agree a nofun function).eq
  exact ⟨⟨ht.alike, he, ht.targets⟩, rfl, rfl, rfl, rfl, rfl⟩

theorem consults_callTarget? (call : NodeId) :
    Consults b (remembered (·.targets) (fun targets t => { t with targets }) Service.callTarget? call)
      (b.callTarget? call) := by
  refine consults_remembered (fun ht => ht.targets) (fun ht he => ?_)
    fun a => (Service.callTarget?_agree a nofun call).eq
  exact ⟨⟨ht.alike, ht.sites, he⟩, rfl, rfl, rfl, rfl, rfl⟩

theorem consults_calledDefinition? (origin : NodeId) :
    Consults b (calledDefinition? origin) (b.calledDefinition? origin) := by
  refine (consults_ask fun a => (Service.invocation?_agree a origin).eq).bind fun r _ => ?_
  cases r with
  | none => exact .pure
  | some call =>
    refine (consults_callTarget? call).bind fun r _ => ?_
    cases r with
    | none => exact .pure
    | some target =>
      exact (consults_ask fun a => (Service.node_agree a nofun).eq).bind fun _ _ => .pure

end Trace

end RequestFlow

/-
What the steps of a trace keep. A step puts questions, looks up notes, shows
slices, resolves occurrences of `this` and descends, and nothing else. So a
relation between traces that these keep is kept by every step that is made of
them, and says of two traces that descend in different ways how they compare.
-/
import RequestFlow.Proofs.Trace.Questions

namespace RequestFlow

namespace Trace

/-- A relation between traces that is kept by what the steps are made of. -/
structure Congruence (setting : Setting) (R : ∀ {α : Type}, Trace α → Trace α → Prop) : Prop where
  pure {α : Type} (a : α) : R (Pure.pure a) (Pure.pure a)
  bind {α β : Type} {m n : Trace α} {f f' : α → Trace β} (hm : R m n) (hf : ∀ a, R (f a) (f' a)) :
    R (m >>= f) (n >>= f')
  ask {α : Type} (question : Service → Except GraphFault α) :
    R (Trace.ask question) (Trace.ask question)
  callSites (function : NodeId) : R (Trace.callSites function) (Trace.callSites function)
  callTarget? (call : NodeId) :
    R (remembered (·.targets) (fun targets t => { t with targets }) Service.callTarget? call)
      (remembered (·.targets) (fun targets t => { t with targets }) Service.callTarget? call)
  emit (slice : Slice) : R (Trace.emit setting.options slice) (Trace.emit setting.options slice)
  resolve (this : NodeId) :
    R (Trace.resolve setting.options this) (Trace.resolve setting.options this)

namespace Congruence

variable {setting : Setting} {R : ∀ {α : Type}, Trace α → Trace α → Prop}
  (hR : Congruence setting R)
include hR

theorem forM {α : Type} {f f' : α → Trace Unit} {l : List α} (h : ∀ a ∈ l, R (f a) (f' a)) :
    R (l.forM f) (l.forM f') := by
  induction l with
  | nil => exact hR.pure ()
  | cons a l ih =>
    have hrest : R (l.forM f) (l.forM f') := ih fun b hb => h b (List.mem_cons_of_mem _ hb)
    exact hR.bind (h a List.mem_cons_self) fun _ => hrest

theorem calledDefinition? (origin : NodeId) :
    R (Trace.calledDefinition? origin) (Trace.calledDefinition? origin) := by
  refine hR.bind (hR.ask _) fun invocation => ?_
  cases invocation with
  | none => exact hR.pure none
  | some call =>
    refine hR.bind (hR.callTarget? call) fun target => ?_
    cases target with
    | none => exact hR.pure none
    | some target => exact hR.bind (hR.ask _) fun definition => hR.pure (some definition)

theorem emitMarked (scope mark : String) (origin : Node) :
    R (Trace.emitMarked setting scope mark origin) (Trace.emitMarked setting scope mark origin) :=
  hR.bind (hR.ask _) fun _ => hR.emit _

/-! ## Steps that descend -/

-- Requests are made in the scope of the step or in that of a call.
variable {P : String → Prop} (hP : ∀ call, P (callScope call))
  {descend descend' : Request → Trace Unit} (hd : ∀ q, P q.scope → R (descend q) (descend' q))
  {scope : String} (hs : P scope) {r : Request} (hr : P r.scope)
include hd

section

include hs

theorem ownerStep (this : Node) (depth : Nat) (owner : Owner) :
    R (Trace.ownerStep setting descend this scope depth owner)
      (Trace.ownerStep setting descend' this scope depth owner) := by
  cases owner with
  | window => exact hR.emit _
  | node id =>
    refine hR.bind (hR.ask _) fun node => hR.bind (hR.emitMarked _ _ node) fun _ => ?_
    split
    · exact hR.bind (hR.ask _) fun context => hd _ hs
    · exact hR.pure ()

theorem thisOccurrence (this : NodeId) (context : Node) (depth : Nat) :
    R (Trace.thisOccurrence setting descend this context scope depth)
      (Trace.thisOccurrence setting descend' this context scope depth) := by
  refine hR.bind (hR.resolve this) fun resolution => hR.bind (hR.ask _) fun node => ?_
  refine hR.bind (hR.forM fun method _ => hR.ownerStep hd hs node depth _) fun _ => ?_
  refine hR.bind (hR.forM fun event _ => ?_) fun _ => hd _ hs
  exact hR.bind (hR.ask _) fun owner => hR.emitMarked _ _ owner

theorem argumentStep (argument : Argument) (statement : Node) (depth : Nat) :
    R (Trace.argumentStep setting descend argument statement scope depth)
      (Trace.argumentStep setting descend' argument statement scope depth) := by
  unfold Trace.argumentStep
  split
  · exact hR.pure ()
  refine hR.forM fun entry _ => ?_
  dsimp only
  split
  · exact hR.thisOccurrence hd hs _ _ _
  split
  · exact hR.pure ()
  · exact hd _ hs

end

include hP in
theorem bindingStep {skip skip' : Argument → Trace Bool}
    (hskip : ∀ argument, R (skip argument) (skip' argument)) (name : String) (depth : Nat)
    (site : CallSite) :
    R (Trace.bindingStep setting descend skip name depth site)
      (Trace.bindingStep setting descend' skip' name depth site) := by
  unfold Trace.bindingStep
  split
  · exact hR.pure ()
  next argument _ =>
  refine hR.bind (hR.emit _) fun _ => hR.bind (hskip argument) fun skipped => ?_
  split
  · exact hR.pure ()
  · exact hR.bind (hR.ask _) fun statement => hR.argumentStep hd (hP site.call) _ _ _

include hP in
theorem siteStep (function : Node) (site : CallSite) :
    R (Trace.siteStep setting descend r function site)
      (Trace.siteStep setting descend' r function site) := by
  refine hR.bindingStep hP hd (fun argument => ?_) r.name r.depth site
  unfold Trace.passedOn
  split
  · exact hR.ask _
  · exact hR.pure false

omit hd in
theorem parameterStep {step step' : CallSite → Trace Unit} (hstep : ∀ site, R (step site) (step' site))
    (producer function : Node) :
    R (Trace.parameterStep setting step r producer function)
      (Trace.parameterStep setting step' r producer function) := by
  refine hR.bind (hR.ask _) fun params => ?_
  split
  · exact hR.bind (hR.emit _) fun _ => hR.bind (hR.callSites function.id) fun _ =>
      hR.forM fun site _ => hstep site
  · exact hR.pure ()

include hr

theorem mentionStep (producer : Node) (name : String) (origin : NodeId) :
    R (Trace.mentionStep setting descend r producer name origin)
      (Trace.mentionStep setting descend' r producer name origin) := by
  unfold Trace.mentionStep
  split
  · exact hR.pure ()
  split
  · exact hR.thisOccurrence hd hr _ _ _
  split
  · exact hR.pure ()
  refine hR.bind (hR.calledDefinition? origin) fun definition => ?_
  cases definition with
  | some definition => exact hR.emitMarked _ _ definition
  | none => exact hd _ hr

theorem mentions (producer : Node) (names : List (String × NodeId)) :
    R (names.forM fun (name, origin) => Trace.mentionStep setting descend r producer name origin)
      (names.forM fun (name, origin) => Trace.mentionStep setting descend' r producer name origin) :=
  hR.forM fun mention _ => hR.mentionStep hd hr producer mention.1 mention.2

theorem producerStep {step step' : Node → CallSite → Trace Unit}
    (hstep : ∀ function site, R (step function site) (step' function site)) (producer : Node) :
    R (Trace.producerStep setting descend step r producer)
      (Trace.producerStep setting descend' step' r producer) := by
  unfold Trace.producerStep
  split
  · exact hR.pure ()
  refine hR.bind (hR.ask _) fun owner => ?_
  cases owner with
  | some function => exact hR.parameterStep (hstep function) producer function
  | none =>
    exact hR.bind (hR.ask _) fun rendered => hR.bind (hR.emit _) fun _ =>
      hR.mentions hd hr producer rendered.identifiers.entries

/-! ## Requests -/

omit hd hr in
theorem expansion {step step' : Node → Trace Unit}
    (hstep : ∀ producer, R (step producer) (step' producer)) :
    R (Trace.expansion step r) (Trace.expansion step' r) :=
  hR.bind (hR.ask _) fun _ => hR.forM fun producer _ => hstep producer

omit hd hr in
/-- Where the marks of a request and the readings of the clock are kept as well, so is its
expansion. -/
theorem expand (hclock : R expired expired) (hcut : R (truncate .deadline) (truncate .deadline))
    (hget : R (get : Trace Tracer) get)
    (hmark : R (modify (·.visit r) : Trace Unit) (modify (·.visit r)))
    (step step' : Node → Trace Unit) (hstep : ∀ producer, R (step producer) (step' producer)) :
    R (Trace.expand step r) (Trace.expand step' r) := by
  refine hR.bind hclock fun passed => ?_
  split
  · exact hcut
  refine hR.bind hget fun t => ?_
  split
  · exact hR.pure ()
  · exact hR.bind hmark fun _ => hR.expansion hstep

omit hd hr in
theorem answering (hempty : P "") (follow follow' : Nat → Request → Trace Unit)
    (hf : ∀ levels q, P q.scope → R (follow levels q) (follow' levels q)) (target : Tracer.Target)
    (context : NodeId) :
    R (Trace.answering setting follow target context)
      (Trace.answering setting follow' target context) := by
  refine hR.bind (hR.ask _) fun context => ?_
  cases target with
  | name name => exact hf _ _ hempty
  | this node => exact hR.thisOccurrence (hf _) hempty node context 0

omit hd hr in
/-- Where marks and readings of the clock are kept, so is a whole trace. -/
theorem follow (hclock : R expired expired) (hcut : ∀ reason, R (truncate reason) (truncate reason))
    (hget : R (get : Trace Tracer) get)
    (hmark : ∀ q, R (modify (Tracer.visit · q) : Trace Unit) (modify (Tracer.visit · q)))
    (levels : Nat) (q : Request) :
    R (Trace.follow setting levels q) (Trace.follow setting levels q) := by
  induction levels generalizing q with
  | zero => exact hcut .depth
  | succ levels ih =>
    refine hR.expand hclock (hcut .deadline) hget (hmark q) _ _ fun producer => ?_
    refine hR.producerStep (P := fun _ => True) (fun q _ => ih q) trivial (fun function site => ?_)
      producer
    exact hR.siteStep (P := fun _ => True) (fun _ => trivial) (fun q _ => ih q) function site

end Congruence

/-! ## The clock -/

variable {α β : Type}

/-- A trace without a deadline stays without one. -/
def Endless (m : Trace α) : Prop :=
  ∀ t : Tracer, t.deadline = .never → (m.run.run t).2.deadline = .never

namespace Endless

theorem of_same {m : Trace α} (h : ∀ t, (m.run.run t).2.deadline = t.deadline) : Endless m :=
  fun t ht => (h t).trans ht

theorem bind {m : Trace α} {f : α → Trace β} (hm : Endless m) (hf : ∀ a, Endless (f a)) :
    Endless (m >>= f) := by
  intro t ht
  have hfirst := hm t ht
  rw [run_bind]
  generalize m.run.run t = ended at hfirst
  obtain ⟨outcome, t'⟩ := ended
  cases outcome with
  | error fault => exact hfirst
  | ok a => exact hf a t' hfirst

theorem congruence (setting : Setting) : Congruence setting fun m _ => Endless m where
  pure _ := of_same fun _ => rfl
  bind := bind
  ask _ := of_same fun _ => rfl
  callSites _ := by
    unfold callSites
    exact of_same (remembered_keeps_field (by intros; rfl) _ _)
  callTarget? _ := of_same (remembered_keeps_field (by intros; rfl) _ _)
  emit _ := of_same fun _ => rfl
  resolve this := of_same fun t => by rw [run_resolve]

theorem follow (setting : Setting) (levels : Nat) (r : Request) :
    Endless (follow setting levels r) := by
  refine (congruence setting).follow ?_ (fun _ => of_same fun _ => rfl) (of_same fun _ => rfl)
    (fun _ => of_same fun _ => rfl) levels r
  -- A reading of the clock leaves as much time as there was: all of it.
  intro t ht
  change t.deadline.tick = .never
  rw [ht]
  rfl

end Endless

end Trace

end RequestFlow

/-
The search for what runs a node, on services that answer alike: the same steps
from every function, and so the same verdict.
-/
import RequestFlow.Proofs.Syntax.Rendering
import RequestFlow.Reach

namespace RequestFlow

variable {mode : Mode} {g h : Service}

/-- Where no question fails, the sources of event edges exist. -/
def Service.EventsHeld (mode : Mode) (g : Service) : Prop :=
  mode = .total → ∀ edge ∈ g.store.edges, edge.relation.isEvent = true →
    g.store.hasNode edge.source = true

/-- Where no question fails, what registers for an event exists. -/
def Step.Valid (mode : Mode) (g : Service) : Step → Prop
  | direct _ => True
  | registration node => mode = .total → g.store.hasNode node = true

/-- The same valid steps have been collected, `known` among them. -/
def Collected (mode : Mode) (g : Service) (known l l' : List Step) : Prop :=
  l = l' ∧ (∀ step ∈ l, step.Valid mode g) ∧ known ⊆ l

variable {known : List Step}

namespace Steps

theorem ask_sim {α : Type} {R : List Step → List Step → Prop} {P : α → Prop}
    {x y : Except GraphFault α} (hx : Agree mode P x y) :
    Sim mode R P (Steps.ask x) (Steps.ask y) := Sim.lift hx

theorem direct_sim {node : NodeId} :
    Sim mode (Collected mode g known) (fun _ => True) (direct node) (direct node) := by
  refine Sim.modify ?_
  rintro l _ ⟨rfl, hv, hk⟩
  refine ⟨rfl, fun step hs => ?_, List.subset_append_of_subset_left _ hk⟩
  rcases List.mem_append.mp hs with hs | hs
  · exact hv step hs
  · rw [List.mem_singleton.mp hs]; trivial

theorem registration_sim {node : NodeId} (he : mode = .total → g.store.hasNode node = true) :
    Sim mode (Collected mode g known) (fun _ => True) (registration node) (registration node) := by
  refine Sim.modify ?_
  rintro l _ ⟨rfl, hv, hk⟩
  refine ⟨rfl, fun step hs => ?_, List.subset_append_of_subset_left _ hk⟩
  rcases List.mem_append.mp hs with hs | hs
  · exact hv step hs
  · rw [List.mem_singleton.mp hs]; exact he

end Steps

namespace Service

theorem isEventRegistration_agree (a : Alike mode g h) (call : Node) :
    Agree mode (fun _ => True) (g.isEventRegistration call) (h.isEventRegistration call) := by
  unfold isEventRegistration
  refine (child?_agree a call.id "callee" (some 0)).bind fun r _ => ?_
  split
  · exact .answer trivial
  · extract_lets finish
    have hf : ∀ name, Agree mode (fun _ => True) (finish name) (finish name) := fun _ => .answer trivial
    split
    · exact hf _
    · exact (memberProperty?_agree a _).bind fun name _ => hf name

theorem isHandlerAssignment_agree (a : Alike mode g h) (assignment : Node) :
    Agree mode (fun _ => True) (g.isHandlerAssignment assignment)
      (h.isHandlerAssignment assignment) := by
  unfold isHandlerAssignment
  refine (child?_agree a assignment.id "left" (some 0)).bind fun r _ => ?_
  split
  · exact .answer trivial
  · exact (memberProperty?_agree a _).bind fun _ _ => .answer trivial

theorem passedTo_sim (a : Alike mode g h) {call : Node} (hc : g.store.Holds call) :
    Sim mode (Collected mode g known) (fun _ => True) (g.passedTo call) (h.passedTo call) := by
  refine (Steps.ask_sim (isEventRegistration_agree a call)).bind fun b _ => ?_
  split
  · exact Steps.registration_sim fun _ => hc.hasNode
  · exact Steps.direct_sim

theorem usageSteps_sim (a : Alike mode g h) (depth : Nat) {l l' : Lineage}
    (hl : Lineage.Alike mode g l l') :
    Sim mode (Collected mode g known) (fun _ => True) (g.usageSteps depth l) (h.usageSteps depth l') := by
  induction depth generalizing l l' with
  | zero => exact .pure trivial
  | succ depth ih =>
    cases hl with
    | root => exact .pure trivial
    | broken ht hs =>
      intro s t hc
      refine .fault ht fun hm => ?_
      rw [hs hm]
      exact ⟨rfl, hc⟩
    | @step edge parent rest other hp hr =>
      simp only [usageSteps]
      split
      · exact passedTo_sim a hp
      split
      · exact Steps.direct_sim
      split
      · refine (Steps.ask_sim (isHandlerAssignment_agree a parent)).bind fun b _ => ?_
        split
        · exact Steps.registration_sim fun _ => hp.hasNode
        · exact .pure trivial
      split
      · exact .pure trivial
      · exact ih hr

theorem functionName?_agree (a : Alike mode g h) (function : Node) :
    Agree mode (fun _ => True) (g.functionName? function) (h.functionName? function) := by
  unfold functionName?
  extract_lets finish finish'
  have hf : ∀ id, Agree mode (fun _ => True) (finish id) (finish' id) := by
    intro id
    unfold finish finish'
    split
    · exact .answer trivial
    refine (astParent?_agree a function.id).bind fun r _ => ?_
    split
    · exact .answer trivial
    split
    · exact (child?_agree a _ _ _).bind fun _ _ => .answer trivial
    · exact .answer trivial
  split
  · exact hf none
  · exact (child?_agree a _ _ _).bind fun id _ => hf id

theorem explicitInvocation?_agree (a : Alike mode g h) (member : Node) :
    Agree mode (fun _ => True) (g.explicitInvocation? member) (h.explicitInvocation? member) := by
  unfold explicitInvocation?
  refine (memberProperty?_agree a member).bind fun name _ => ?_
  split
  · exact (astParent?_agree a member.id).bind fun _ _ => .answer trivial
  · exact .answer trivial

theorem referenceSteps_sim (a : Alike mode g h) (reference : Node) :
    Sim mode (Collected mode g known) (fun _ => True) (g.referenceSteps reference)
      (h.referenceSteps reference) := by
  unfold referenceSteps
  refine (Steps.ask_sim (astParent?_agree a reference.id)).bind fun r hr => ?_
  split
  · exact .pure trivial
  · next edge parent =>
    have hp : g.store.Holds parent := (hr (edge, parent) rfl).holds
    extract_lets invocation
    split
    · exact passedTo_sim a hp
    split
    · refine (Steps.ask_sim (isHandlerAssignment_agree a parent)).bind fun b _ => ?_
      split
      · exact Steps.registration_sim fun _ => hp.hasNode
      · exact .pure trivial
    split
    · refine (Steps.ask_sim (explicitInvocation?_agree a parent)).bind fun r _ => ?_
      split
      · exact Steps.direct_sim
      · exact .pure trivial
    · exact .pure trivial

theorem namedSteps_sim (a : Alike mode g h) (function : Node) (name : String) :
    Sim mode (Collected mode g known) (fun _ => True) (g.namedSteps function name)
      (h.namedSteps function name) := by
  unfold namedSteps
  refine (Steps.ask_sim (incoming_agree a function.id (by simp))).bind fun edges _ => ?_
  refine (Sim.forM fun _ _ => Steps.direct_sim).bind fun _ _ => ?_
  refine (Steps.ask_sim (matching_agree a _)).bind fun references _ => ?_
  exact Sim.forM fun reference _ => referenceSteps_sim a reference

theorem storedProperty?_agree (a : Alike mode g h) (depth : Nat) {l l' : Lineage}
    (hl : Lineage.Alike mode g l l') :
    Agree mode (fun _ => True) (g.storedProperty? depth l) (h.storedProperty? depth l') := by
  induction depth generalizing l l' with
  | zero => exact .answer trivial
  | succ depth ih =>
    cases hl with
    | root => exact .answer trivial
    | broken ht hs =>
      refine .fault ht fun hm => ?_
      rw [hs hm]; rfl
    | @step edge parent rest other hp hr =>
      simp only [storedProperty?]
      split
      · exact (child?_agree a _ _ _).bind fun _ _ => .answer trivial
      split
      · refine (child?_agree a parent.id "left" (some 0)).bind fun r _ => ?_
        split
        · exact .answer trivial
        · exact (memberProperty?_agree a _).bind fun _ _ => .answer trivial
      split
      · exact .answer trivial
      · exact ih hr

theorem propertyCallStep_sim (a : Alike mode g h) (property : String) (call : Node) :
    Sim mode (Collected mode g known) (fun _ => True) (g.propertyCallStep property call)
      (h.propertyCallStep property call) := by
  unfold propertyCallStep
  refine (Steps.ask_sim (child?_agree a call.id "callee" (some 0))).bind fun r _ => ?_
  split
  · exact .pure trivial
  refine (Steps.ask_sim (memberProperty?_agree a _)).bind fun name _ => ?_
  split
  · exact Steps.direct_sim
  · exact .pure trivial

theorem propertySteps_sim (a : Alike mode g h) (function : Node) :
    Sim mode (Collected mode g known) (fun _ => True) (g.propertySteps function)
      (h.propertySteps function) := by
  unfold propertySteps
  have hs := storedProperty?_agree a propertySearchDepth (lineage_alike a function.id)
  refine (Steps.ask_sim hs).bind fun r _ => ?_
  split
  · exact .pure trivial
  refine (Steps.ask_sim (ofType_agree a _)).bind fun calls _ => ?_
  exact Sim.forM fun call _ => propertyCallStep_sim a _ call

/-- What has no part in a loop may be left out before it. -/
theorem forM_filter {p : Edge → Bool} {f : Edge → Steps Unit} {l : List Edge} :
    (l.forM fun edge => if p edge then f edge else return) = (l.filter p).forM f := by
  induction l with
  | nil => rfl
  | cons edge l ih =>
    change ((if p edge then f edge else return) >>= fun _ => l.forM _) = _
    rw [List.filter_cons]
    cases p edge with
    | true => simp only [if_true, ih]; rfl
    | false => simp [ih]

/-- The registrations that event edges into a function stand for. -/
theorem eventSteps_sim (a : Alike mode g h) (function : Node)
    (hv : g.EventsHeld mode) :
    Sim mode (Collected mode g known) (fun _ => True)
      (do (← Steps.ask (g.incoming function.id none)).forM fun edge =>
        if edge.relation.isEvent then Steps.registration edge.source else return)
      (do (← Steps.ask (h.incoming function.id none)).forM fun edge =>
        if edge.relation.isEvent then Steps.registration edge.source else return) := by
  simp only [forM_filter]
  have hf : (h.store.incoming function.id none).filter (·.relation.isEvent) =
      (g.store.incoming function.id none).filter (·.relation.isEvent) := by
    rw [Store.events_eq_properEdges, Store.events_eq_properEdges, a.edges]
  unfold incoming
  rw [ask_eq_map, @ask_eq_map h]
  have hq := a.asked (.incoming function.id none) trivial
  generalize g.ask (.incoming function.id none) () = x at hq
  generalize h.ask (.incoming function.id none) () = y at hq
  cases hq with
  | fault ht hs =>
    intro s t hc
    refine .fault ht fun hm => ?_
    rw [hs hm]
    exact ⟨rfl, hc⟩
  | answer =>
    change Sim mode _ _ (((g.store.incoming function.id none).filter _).forM _)
      (((h.store.incoming function.id none).filter _).forM _)
    rw [hf]
    refine Sim.forM fun edge he => Steps.registration_sim fun hm => ?_
    rw [List.mem_filter, Store.incoming_eq, List.mem_filter] at he
    exact hv hm edge (by simpa using he.1.1) he.2

theorem invocationSteps_sim (a : Alike mode g h) (function : Node)
    (hv : g.EventsHeld mode) :
    Sim mode (Collected mode g known) (fun _ => True) (g.invocationSteps function)
      (h.invocationSteps function) := by
  unfold invocationSteps
  rw [← bind_assoc (Steps.ask (g.incoming function.id none)),
    ← bind_assoc (Steps.ask (h.incoming function.id none))]
  refine (eventSteps_sim a function hv).bind fun _ _ => ?_
  refine (usageSteps_sim a _ (lineage_alike a function.id)).bind fun _ _ => ?_
  refine (Steps.ask_sim (functionName?_agree a function)).bind fun r _ => ?_
  split
  · exact (namedSteps_sim a function _).bind fun _ _ => propertySteps_sim a function
  · exact propertySteps_sim a function

/-- A function has the same steps, unless a question fails on the way. -/
theorem steps_alike (a : Alike mode g h) (function : Node)
    (hv : g.EventsHeld mode) :
    (∃ steps, g.steps function = (steps, none) ∧ h.steps function = (steps, none) ∧
      ∀ step ∈ steps, step.Valid mode g) ∨
    (mode ≠ .total ∧ ∃ steps fault, g.steps function = (steps, some fault) ∧
      (mode = .same → h.steps function = (steps, some fault) ∧ ∀ step ∈ steps, step.Valid mode g)) := by
  have hs := invocationSteps_sim a function hv [] [] ⟨rfl, nofun, List.Subset.refl []⟩
  unfold steps
  generalize StateT.run (g.invocationSteps function).run [] = r at hs
  generalize StateT.run (h.invocationSteps function).run [] = r' at hs
  cases hs with
  | answer _ hc => exact .inl ⟨_, rfl, by rw [hc.1], hc.2.1⟩
  | @fault e s y t ht hs =>
    refine .inr ⟨ht, s, e, rfl, fun hm => ?_⟩
    obtain ⟨rfl, rfl, hv, -⟩ := hs hm
    exact ⟨rfl, hv⟩

end Service

/-! ## The search -/

namespace Search

variable {enter enter' : NodeId → Search → Except GraphFault Search}

theorem register_agree (a : Service.Alike mode g h)
    (he : ∀ node search, Agree mode (fun _ => True) (enter node search) (enter' node search))
    {call : NodeId} (hc : mode = .total → g.store.hasNode call = true) (search : Search) :
    Agree mode (fun _ => True) (register g enter call search) (register h enter' call search) := by
  unfold register
  split
  · exact .answer trivial
  refine (he call _).bind fun nested _ => ?_
  split
  · refine (Service.statement_agree a hc).bind fun top _ => ?_
    exact (Service.render_agree a hc true).bind fun rendered _ => .answer trivial
  · exact .answer trivial

theorem take_agree (a : Service.Alike mode g h)
    (he : ∀ node search, Agree mode (fun _ => True) (enter node search) (enter' node search))
    {step : Step} (hs : step.Valid mode g) (search : Search) :
    Agree mode (fun _ => True) (take g enter search step) (take h enter' search step) := by
  cases step with
  | direct node => exact he node search
  | registration node => exact register_agree a he hs search

theorem visit_agree (a : Service.Alike mode g h)
    (hv : g.EventsHeld mode)
    (he : ∀ node search, Agree mode (fun _ => True) (enter node search) (enter' node search))
    (node : NodeId) (search : Search) :
    Agree mode (fun _ => True) (visit g enter node search) (visit h enter' node search) := by
  unfold visit
  split
  · exact .answer trivial
  refine (Service.enclosingFunction?_agree a node).bind fun r _ => ?_
  split
  · exact .answer trivial
  split
  · exact .answer trivial
  next function _ _ =>
  rcases Service.steps_alike a function hv with ⟨steps, hg, hh, hval⟩ | ⟨ht, steps, fault, hg, hs⟩
  · rw [hg, hh]
    refine Agree.bind (P := fun _ => True) ?_ fun _ _ => .answer trivial
    exact .foldlM (fun step hm s _ => take_agree a he (hval step hm) s) trivial
  · rw [hg]
    by_cases hm : mode = .same
    · obtain ⟨hh, hval⟩ := hs hm
      rw [hh]
      refine Agree.bind (P := fun _ => True) ?_ fun _ _ => .fault ht fun _ => rfl
      exact .foldlM (fun step hm s _ => take_agree a he (hval step hm) s) trivial
    · -- Whatever the steps before the failed question lead to, the visit fails.
      dsimp only
      generalize steps.foldlM (take g enter) { search with visited := function.id :: search.visited } = x
      cases x <;> exact .fault ht fun hm' => absurd hm' hm

theorem enterUpTo_agree (a : Service.Alike mode g h)
    (hv : g.EventsHeld mode) (fuel : Nat) (node : NodeId) (search : Search) :
    Agree mode (fun _ => True) (enterUpTo g fuel node search) (enterUpTo h fuel node search) := by
  induction fuel generalizing node search with
  | zero => exact .answer trivial
  | succ fuel ih => exact visit_agree a hv ih node search

end Search

/-- The verdicts on a node agree. -/
theorem Service.reach_agree (a : Alike mode g h)
    (hv : g.EventsHeld mode) (node : NodeId) :
    Agree mode (fun _ => True) (g.reach node) (h.reach node) := by
  unfold reach Store.nodeCount
  rw [← a.nodes]
  exact (Search.enterUpTo_agree a hv _ node {}).bind fun _ _ => .answer trivial

end RequestFlow

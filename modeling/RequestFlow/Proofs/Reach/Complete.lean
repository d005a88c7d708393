/-
What the search for what runs a node does not miss. Of a function that has a
name, every call is a step, so that a node inside runs whenever a call does; a
function that an assignment names has no such steps. And a registration is
listed when it runs on page load or without the functions that run the node. A
registration that runs only with one of those may be missing: the search into
it enters no function that the search around it has entered.
-/
import RequestFlow.Proofs.Reach.Exact

namespace RequestFlow

namespace Steps

variable {g : Service} {l l' : List Step}

/-- An answer is had without a step. -/
theorem run_ask {α : Type} {x : Except GraphFault α} {a : α}
    (h : (ask x).run.run l = (.ok a, l')) : x = .ok a ∧ l' = l := by
  cases x with
  | error fault => cases h
  | ok b => cases h; exact ⟨rfl, rfl⟩

theorem run_forM_direct (edges : List Edge) (l : List Step) :
    (edges.forM fun edge => direct edge.source).run.run l =
      (.ok (), l ++ edges.map fun edge => .direct edge.source) := by
  induction edges generalizing l with
  | nil => rw [List.map_nil, List.append_nil]; rfl
  | cons edge edges ih =>
    change (direct edge.source >>= fun _ => edges.forM _).run.run l = _
    rw [run_bind, List.map_cons, List.append_cons]
    exact ih _

/-- What collects alike whatever has been collected before loses none of it. -/
theorem subset_of_sim {m : Steps Unit} {r : Except GraphFault Unit}
    (hm : Sim .same (Collected .same g l) (fun _ => True) m m) (h : m.run.run l = (r, l')) :
    l ⊆ l' := by
  have hv : ∀ step ∈ l, step.Valid .same g := by
    intro step _
    cases step with
    | direct node => trivial
    | registration node => nofun
  have hs := (hm l l ⟨rfl, hv, List.Subset.refl l⟩).same.2
  rw [h] at hs
  exact hs.2.2

end Steps

namespace Service

variable {g : Service}

/-! ## Calls -/

/-- Where no question fails, collecting the steps of a function comes to its end. -/
theorem Answers.run_invocationSteps (hg : g.Answers) (function : Node) :
    (g.invocationSteps function).run.run [] = (.ok (), (g.steps function).1) := by
  have hnone : (g.steps function).2 = none := by
    rcases steps_alike hg.alike function fun _ => hg.events with ⟨_, hs, -⟩ | ⟨ht, -⟩
    · rw [hs]
    · exact absurd rfl ht
  unfold steps at hnone ⊢
  split
  · next hr => exact hr
  · next hr => rw [hr] at hnone; cases hnone

/-- Among the steps that the name of a function leads to are its calls. -/
theorem direct_mem_of_namedSteps {function : Node} {name : String} {l l' : List Step}
    (h : (g.namedSteps function name).run.run l = (.ok (), l')) {edge : Edge}
    (he : edge ∈ g.store.edges) (hr : edge.relation = .cg) (ht : edge.target = function.id) :
    .direct edge.source ∈ l' := by
  unfold namedSteps at h
  obtain ⟨edges, _, hask, h⟩ := exists_of_run_bind h
  obtain ⟨hin, rfl⟩ := Steps.run_ask hask
  obtain ⟨-, rfl⟩ := (incoming_agree (Alike.self g) function.id (by simp)).of_ok hin
  obtain ⟨_, l₁, hloop, h⟩ := exists_of_run_bind h
  rw [Steps.run_forM_direct] at hloop
  cases hloop
  -- The mentions of the name come after the calls and take no step back.
  refine Steps.subset_of_sim (g := g) ?_ h (List.mem_append_right _ ?_)
  · refine (Steps.ask_sim (matching_agree (Alike.self g) _)).bind fun references _ => ?_
    exact Sim.forM fun reference _ => referenceSteps_sim (Alike.self g) reference
  · exact List.mem_map_of_mem (Store.mem_incoming.mpr ⟨he, hr, ht⟩)

/-- The calls of a function that has a name are among its steps. -/
theorem Answers.direct_mem_steps (hg : g.Answers) {function : Node} {name : String}
    (hn : g.functionName? function = .ok (some name)) {edge : Edge} (he : edge ∈ g.store.edges)
    (hr : edge.relation = .cg) (ht : edge.target = function.id) :
    .direct edge.source ∈ (g.steps function).1 := by
  have hrun := hg.run_invocationSteps function
  unfold invocationSteps at hrun
  obtain ⟨_, _, -, hrun⟩ := exists_of_run_bind hrun
  obtain ⟨_, _, -, hrun⟩ := exists_of_run_bind hrun
  obtain ⟨_, _, -, hrun⟩ := exists_of_run_bind hrun
  obtain ⟨_, _, hask, hrun⟩ := exists_of_run_bind hrun
  cases hn.symm.trans (Steps.run_ask hask).1
  obtain ⟨_, _, hnamed, hrun⟩ := exists_of_run_bind hrun
  have hmem := direct_mem_of_namedSteps hnamed he hr ht
  exact Steps.subset_of_sim (propertySteps_sim (Alike.self g) function) hrun hmem

/-- **A function that has a name runs when it is called.** Of a call and a node inside the function
called, the node runs on page load if the call does, and runs at some time if the call does. -/
theorem reach_of_call (ha : g.store.AstAcyclic) (hg : g.Answers) {function : Node} {name : String}
    (hn : g.functionName? function = .ok (some name)) {edge : Edge} (he : edge ∈ g.store.edges)
    (hr : edge.relation = .cg) (ht : edge.target = function.id) {node : NodeId}
    (hw : g.Within node (some function)) :
    ∃ called inside, g.reach edge.source = .ok called ∧ g.reach node = .ok inside ∧
      (called = .onPageLoad → inside = .onPageLoad) ∧
      (called ≠ .unreachable → inside ≠ .unreachable) := by
  obtain ⟨s, hs, hcall⟩ := exists_entered ha hg edge.source
  obtain ⟨t, ht', hnode⟩ := exists_entered ha hg node
  have hstep : .direct edge.source ∈ (g.steps function).1 := hg.direct_mem_steps hn he hr ht
  refine ⟨s.verdict, t.verdict, hs, ht', ?_, ?_⟩
  · rw [verdict_eq_onPageLoad hcall, verdict_eq_onPageLoad hnode]
    exact fun hruns => .step hw hstep trivial hruns
  · rw [Ne, Ne, verdict_eq_unreachable hcall, verdict_eq_unreachable hnode, not_not, not_not]
    exact fun hruns => .step hw hstep trivial hruns

/-- A page that declares `save` and assigns a function to `send`, and calls both. -/
def calledPage : Store :=
  .ofLists
    [{ id := 1, type := .program },
     { id := 2, type := .functionDeclaration }, { id := 3, type := .identifier, code := "save" },
     { id := 4, type := .blockStatement }, { id := 5, type := .expressionStatement },
     { id := 6, type := .expressionStatement }, { id := 7, type := .assignmentExpression },
     { id := 8, type := .identifier, code := "send" }, { id := 9, type := .functionExpression },
     { id := 10, type := .blockStatement }, { id := 11, type := .expressionStatement },
     { id := 12, type := .expressionStatement }, { id := 13, type := .callExpression },
     { id := 14, type := .identifier, code := "save" },
     { id := 15, type := .expressionStatement }, { id := 16, type := .callExpression },
     { id := 17, type := .identifier, code := "send" }]
    [{ source := 1, target := 2, relation := .ast, relationType := "body" },
     { source := 2, target := 3, relation := .ast, relationType := "id" },
     { source := 2, target := 4, relation := .ast, relationType := "body" },
     { source := 4, target := 5, relation := .ast, relationType := "body" },
     { source := 1, target := 6, relation := .ast, relationType := "body" },
     { source := 6, target := 7, relation := .ast, relationType := "expression" },
     { source := 7, target := 8, relation := .ast, relationType := "left" },
     { source := 7, target := 9, relation := .ast, relationType := "right" },
     { source := 9, target := 10, relation := .ast, relationType := "body" },
     { source := 10, target := 11, relation := .ast, relationType := "body" },
     { source := 1, target := 12, relation := .ast, relationType := "body" },
     { source := 12, target := 13, relation := .ast, relationType := "expression" },
     { source := 13, target := 14, relation := .ast, relationType := "callee" },
     { source := 1, target := 15, relation := .ast, relationType := "body" },
     { source := 15, target := 16, relation := .ast, relationType := "expression" },
     { source := 16, target := 17, relation := .ast, relationType := "callee" },
     { source := 13, target := 2, relation := .cg }, { source := 16, target := 9, relation := .cg }]

/-- What `save` does is done on page load. -/
theorem reach_of_call_calledPage :
    calledPage.AstAcyclic ∧ calledPage.service.Answers ∧
    calledPage.service.functionName? { id := 2, type := .functionDeclaration } = .ok (some "save") ∧
    { source := 13, target := 2, relation := .cg } ∈ calledPage.edges ∧
    calledPage.service.Within 5 (some { id := 2, type := .functionDeclaration }) ∧
    ∃ called inside, calledPage.service.reach 13 = .ok called ∧
      calledPage.service.reach 5 = .ok inside ∧ (called = .onPageLoad → inside = .onPageLoad) ∧
      (called ≠ .unreachable → inside ≠ .unreachable) := by
  have ha : calledPage.AstAcyclic := Store.astAcyclic_of_lt (by decide +kernel)
  have hg : calledPage.service.Answers := answers_of_closed (by decide +kernel)
  have hn : calledPage.service.functionName? { id := 2, type := .functionDeclaration } =
      .ok (some "save") := by decide +kernel
  have he : { source := 13, target := 2, relation := .cg } ∈ calledPage.edges := by decide +kernel
  have hw : calledPage.service.Within 5 (some { id := 2, type := .functionDeclaration }) :=
    within_of_enclosingFunction? ha (by decide +kernel)
  exact ⟨ha, hg, hn, he, hw, reach_of_call ha hg hn he rfl rfl hw⟩

/-- What `send` does is taken never to be done: an assignment gives no name, although the call runs
on page load. -/
theorem reach_calledPage_assigned :
    calledPage.AstAcyclic ∧ calledPage.service.Answers ∧
    { source := 16, target := 9, relation := .cg } ∈ calledPage.edges ∧
    calledPage.service.Within 11 (some { id := 9, type := .functionExpression }) ∧
    calledPage.service.reach 16 = .ok .onPageLoad ∧
    calledPage.service.reach 11 = .ok .unreachable := by
  have ha : calledPage.AstAcyclic := Store.astAcyclic_of_lt (by decide +kernel)
  have hg : calledPage.service.Answers := answers_of_closed (by decide +kernel)
  refine ⟨ha, hg, by decide +kernel, ?_, by decide +kernel, by decide +kernel⟩
  exact within_of_enclosingFunction? ha (by decide +kernel)

end Service

/-! ## Registrations -/

variable {g : Service} {node : NodeId} {s : Search}

theorem Service.RunBy.holds {function : Node} (hb : g.RunBy node function) :
    g.store.Holds function := by
  induction hb with
  | here hw => exact hw.holds
  | step _ _ _ ih => exact ih

namespace Search

/-- A search from the start enters functions that run the node only. -/
theorem Entered.runBy (h : Entered g node {} s) {function : Node} (hf : g.store.Holds function)
    (hm : function.id ∈ s.visited) : g.RunBy node function := by
  obtain ⟨other, hb, hid⟩ := (h.entered function.id hm).resolve_left nofun
  rwa [← hb.holds.eq hf hid]

/-- A search from the start that has not found the page load has entered every function that runs
the node. -/
theorem Entered.mem_visited (h : Entered g node {} s) (hl : s.onPageLoad = false) {function : Node}
    (hb : g.RunBy node function) : function.id ∈ s.visited := by
  have key : ∀ {m last}, g.RunBy m last → Settled g s (.direct m) → last.id ∈ s.visited := by
    intro m last hb
    induction hb with
    | here hw =>
      intro hset
      obtain ⟨f, hf, hm⟩ := hset hl
      cases hw.unique hf
      exact hm
    | step hw hs _ ih =>
      intro hset
      obtain ⟨f, hf, hm⟩ := hset hl
      cases hw.unique hf
      exact ih (h.settled _ hw.holds hm (by simp) _ hs)
  exact key hb h.start

/-- Where the page load has not been found, a node that runs on page load does so without the
functions entered: those would run the node searched from on page load too. -/
theorem Entered.runsWithout_of_runs (h : Entered g node {} s) (hl : s.onPageLoad = false)
    {other : NodeId} (hr : g.Runs Step.IsDirect other) : g.RunsWithout s.visited other := by
  induction hr with
  | load hw => exact .load hw
  | step hw hs hv hr ih =>
    refine .step hw (fun hm => h.not_runs hl ?_) hs ih
    exact (h.runBy hw.holds hm).runs (fun _ => trivial) hs hv hr

/-- A registration of a function that runs the node is listed if it runs without the functions
entered. -/
theorem Entered.exists_witness (h : Entered g node {} s) (hl : s.onPageLoad = false)
    {function : Node} (hb : g.RunBy node function) {call : NodeId}
    (hc : .registration call ∈ (g.steps function).1) (hr : g.RunsWithout s.visited call) :
    ∃ w ∈ s.witnesses, w.call = call := by
  have hset := h.settled function hb.holds (h.mem_visited hl hb) (by simp) _ hc
  exact hset.resolve_right (not_not_intro hr)

theorem of_verdict_eq_witnesses {ws : List Witness} (h : s.verdict = .witnesses ws) :
    s.onPageLoad = false ∧ s.witnesses = ws := by
  unfold verdict at h
  split at h
  · cases h
  next hl =>
  split at h <;> cases h
  exact ⟨by simpa using hl, rfl⟩

end Search

namespace Service

/-- **No registration is missing** that runs on page load, or by a way that meets no function that
runs the node by direct steps. -/
theorem reach_lists (ha : g.store.AstAcyclic) (hg : g.Answers) {ws : List Witness}
    (hv : g.reach node = .ok (.witnesses ws)) {function : Node} (hb : g.RunBy node function)
    {call : NodeId} (hc : .registration call ∈ (g.steps function).1)
    (hr : g.reach call = .ok .onPageLoad ∨ ∃ off : List NodeId,
      (∀ other, g.RunBy node other → other.id ∈ off) ∧ g.RunsWithout off call) :
    ∃ w ∈ ws, w.call = call := by
  obtain ⟨s, hs, h⟩ := exists_entered ha hg node
  obtain ⟨hl, rfl⟩ := Search.of_verdict_eq_witnesses (Except.ok.inj (hs.symm.trans hv))
  refine h.exists_witness hl hb hc ?_
  rcases hr with hload | ⟨off, hoff, hway⟩
  · obtain ⟨t, ht, h'⟩ := exists_entered ha hg call
    have hruns := (verdict_eq_onPageLoad h').mp (Except.ok.inj (ht.symm.trans hload))
    exact h.runsWithout_of_runs hl hruns
  · refine hway.anti fun id hm => ?_
    obtain ⟨other, hother, rfl⟩ := (h.entered id hm).resolve_left nofun
    exact hoff other hother

/-- A page that passes `start` to `load`. Where `start` runs it calls `save`, and it passes `save`
to `onClick`. -/
def siblingPage : Store :=
  .ofLists
    [{ id := 1, type := .program },
     { id := 2, type := .functionDeclaration }, { id := 3, type := .identifier, code := "save" },
     { id := 4, type := .blockStatement }, { id := 5, type := .expressionStatement },
     { id := 6, type := .functionDeclaration }, { id := 7, type := .identifier, code := "start" },
     { id := 8, type := .blockStatement }, { id := 9, type := .expressionStatement },
     { id := 10, type := .callExpression }, { id := 11, type := .identifier, code := "save" },
     { id := 12, type := .expressionStatement }, { id := 13, type := .callExpression },
     { id := 14, type := .identifier, code := "onClick" },
     { id := 15, type := .identifier, code := "save" },
     { id := 16, type := .expressionStatement }, { id := 17, type := .callExpression },
     { id := 18, type := .identifier, code := "load" },
     { id := 19, type := .identifier, code := "start" }]
    [{ source := 1, target := 2, relation := .ast, relationType := "body" },
     { source := 2, target := 3, relation := .ast, relationType := "id" },
     { source := 2, target := 4, relation := .ast, relationType := "body" },
     { source := 4, target := 5, relation := .ast, relationType := "body" },
     { source := 1, target := 6, relation := .ast, relationType := "body" },
     { source := 6, target := 7, relation := .ast, relationType := "id" },
     { source := 6, target := 8, relation := .ast, relationType := "body" },
     { source := 8, target := 9, relation := .ast, relationType := "body" },
     { source := 9, target := 10, relation := .ast, relationType := "expression" },
     { source := 10, target := 11, relation := .ast, relationType := "callee" },
     { source := 8, target := 12, relation := .ast, relationType := "body" },
     { source := 12, target := 13, relation := .ast, relationType := "expression" },
     { source := 13, target := 14, relation := .ast, relationType := "callee" },
     { source := 13, target := 15, relation := .ast, relationType := "arguments" },
     { source := 1, target := 16, relation := .ast, relationType := "body" },
     { source := 16, target := 17, relation := .ast, relationType := "expression" },
     { source := 17, target := 18, relation := .ast, relationType := "callee" },
     { source := 17, target := 19, relation := .ast, relationType := "arguments" },
     { source := 10, target := 2, relation := .cg }]

/-- The registration of `start`, which runs what `save` does through a call, is listed. -/
theorem reach_lists_siblingPage :
    siblingPage.AstAcyclic ∧ siblingPage.service.Answers ∧
    siblingPage.service.RunBy 5 { id := 6, type := .functionDeclaration } ∧
    .registration 17 ∈ (siblingPage.service.steps { id := 6, type := .functionDeclaration }).1 ∧
    siblingPage.service.reach 17 = .ok .onPageLoad ∧
    ∃ ws, siblingPage.service.reach 5 = .ok (.witnesses ws) ∧ ∃ w ∈ ws, w.call = 17 := by
  have ha : siblingPage.AstAcyclic := Store.astAcyclic_of_lt (by decide +kernel)
  have hg : siblingPage.service.Answers := answers_of_closed (by decide +kernel)
  have hsave : siblingPage.service.Within 5 (some { id := 2, type := .functionDeclaration }) :=
    within_of_enclosingFunction? ha (by decide +kernel)
  have hstart : siblingPage.service.Within 10 (some { id := 6, type := .functionDeclaration }) :=
    within_of_enclosingFunction? ha (by decide +kernel)
  have hb : siblingPage.service.RunBy 5 { id := 6, type := .functionDeclaration } :=
    .step hsave (by decide +kernel) (.here hstart)
  have hc : .registration 17 ∈
      (siblingPage.service.steps { id := 6, type := .functionDeclaration }).1 := by decide +kernel
  have hload : siblingPage.service.reach 17 = .ok .onPageLoad := by decide +kernel
  have hv : siblingPage.service.reach 5 = .ok (.witnesses [⟨17, 16, "load(start)"⟩]) := by
    decide +kernel
  exact ⟨ha, hg, hb, hc, hload, _, hv, reach_lists ha hg hv hb hc (.inl hload)⟩

/-- The registration of `save` is not: it runs when `start` does, which the search has entered
through the call. -/
theorem reach_siblingPage_missing :
    siblingPage.AstAcyclic ∧ siblingPage.service.Answers ∧
    siblingPage.service.RunBy 5 { id := 2, type := .functionDeclaration } ∧
    .registration 13 ∈ (siblingPage.service.steps { id := 2, type := .functionDeclaration }).1 ∧
    siblingPage.service.reach 13 = .ok (.witnesses [⟨17, 16, "load(start)"⟩]) ∧
    siblingPage.service.reach 5 = .ok (.witnesses [⟨17, 16, "load(start)"⟩]) := by
  have ha : siblingPage.AstAcyclic := Store.astAcyclic_of_lt (by decide +kernel)
  refine ⟨ha, answers_of_closed (by decide +kernel), .here ?_, ?_⟩
  · exact within_of_enclosingFunction? ha (by decide +kernel)
  · decide +kernel

end Service

end RequestFlow

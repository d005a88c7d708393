/-
The verdict on when a node runs is exact. `Service.Runs` says what it means that
a node runs: from the node to the function around it, from there by a step to a
node that runs the function, and so on until a node with no function around it.
With direct steps only the node runs on page load; with registrations as well it
runs at some time.

The search enters each function once, stops looking once it has found the page
load, and looks into a registration with a search of its own that starts from
the functions entered so far. `Search.Entered` says what a search leaves behind:
each function it has entered is settled, so that a way to the page load that the
search did not find would have to avoid every function entered.
-/
import RequestFlow.Proofs.Graph.Tree
import RequestFlow.Proofs.Reach.Search

namespace RequestFlow

namespace Step

def node : Step → NodeId
  | direct node | registration node => node

def IsDirect : Step → Prop
  | direct _ => True
  | registration _ => False

end Step

namespace Service

variable {g : Service}

/-- No question fails: none is refused, and the nodes that lie at the ends of syntax edges and at
the sources of event edges exist. -/
structure Answers (g : Service) : Prop where
  asked : ∀ query : Query, query.IsRead → g.outage query = none
  tree : ∀ edge, g.store.IsAst edge →
    g.store.hasNode edge.source = true ∧ g.store.hasNode edge.target = true
  events : ∀ edge ∈ g.store.edges, edge.relation.isEvent = true →
    g.store.hasNode edge.source = true

/-- A store all of whose edges have their ends answers every question. -/
theorem answers_of_closed {store : Store} (h : store.Closed) : store.service.Answers where
  asked _ _ := rfl
  tree edge he := h edge he.1
  events edge he _ := (h edge he).1

theorem Answers.alike (hg : g.Answers) : Alike .total g g where
  nodes := rfl
  edges := rfl
  asked query hq := by
    rw [ask, hg.asked query hq]
    exact .answer trivial
  closed _ := hg.tree

/-- `node` runs, by steps of the kinds that `via` allows. -/
inductive Runs (g : Service) (via : Step → Prop) : NodeId → Prop
  | load {node} (hw : g.Within node none) : Runs g via node
  | step {node function step} (hw : g.Within node (some function))
    (hs : step ∈ (g.steps function).1) (hv : via step) (hr : Runs g via step.node) : Runs g via node

/-- By direct steps alone, `function` runs `node`. -/
inductive RunBy (g : Service) : NodeId → Node → Prop
  | here {node function} (hw : g.Within node (some function)) : RunBy g node function
  | step {node function next last} (hw : g.Within node (some function))
    (hs : .direct next ∈ (g.steps function).1) (hr : RunBy g next last) : RunBy g node last

/-- `node` runs by steps of any kind, without the functions `off`. -/
inductive RunsWithout (g : Service) (off : List NodeId) : NodeId → Prop
  | load {node} (hw : g.Within node none) : RunsWithout g off node
  | step {node function step} (hw : g.Within node (some function)) (ho : function.id ∉ off)
    (hs : step ∈ (g.steps function).1) (hr : RunsWithout g off step.node) : RunsWithout g off node

theorem Runs.imp {via via' : Step → Prop} (h : ∀ step, via step → via' step) {node : NodeId}
    (hr : g.Runs via node) : g.Runs via' node := by
  induction hr with
  | load hw => exact .load hw
  | step hw hs hv _ ih => exact .step hw hs (h _ hv) ih

theorem Runs.runsWithout {node : NodeId} (hr : g.Runs (fun _ => True) node) :
    g.RunsWithout [] node := by
  induction hr with
  | load hw => exact .load hw
  | step hw hs _ _ ih => exact .step hw (by simp) hs ih

theorem RunsWithout.anti {off off' : List NodeId} (h : off ⊆ off') {node : NodeId}
    (hr : g.RunsWithout off' node) : g.RunsWithout off node := by
  induction hr with
  | load hw => exact .load hw
  | step hw ho hs _ ih => exact .step hw (fun hm => ho (h hm)) hs ih

/-- What runs a function that runs the node by direct steps runs the node. -/
theorem RunBy.runs {via : Step → Prop} (hd : ∀ next, via (.direct next)) {node : NodeId}
    {function : Node} (hb : g.RunBy node function) {step : Step} (hs : step ∈ (g.steps function).1)
    (hv : via step) (hr : g.Runs via step.node) : g.Runs via node := by
  induction hb with
  | here hw => exact .step hw hs hv hr
  | step hw hnext _ ih => exact .step hw hnext (hd _) (ih hs)

/-- What a way without a function entered meets is not that function. -/
theorem RunsWithout.not_mem {off : List NodeId} {node : NodeId} (hr : g.RunsWithout off node)
    {function : Node} (hw : g.Within node (some function)) : function.id ∉ off := by
  cases hr with
  | load hw' => cases hw.unique hw'
  | step hw' ho => cases hw.unique hw'; exact ho

end Service

namespace Search

variable {g : Service}

/-- Functions entered are distinct nodes. -/
structure Bounded (g : Service) (s : Search) : Prop where
  distinct : s.visited.Nodup
  exist : ∀ id ∈ s.visited, g.store.hasNode id = true

/-- A search goes on: nothing found is lost. -/
structure Grows (s s' : Search) : Prop where
  visited : s.visited ⊆ s'.visited
  load : s'.onPageLoad = false → s.onPageLoad = false
  witnesses : s.witnesses ⊆ s'.witnesses

theorem Grows.refl (s : Search) : Grows s s := ⟨fun _ h => h, id, fun _ h => h⟩

theorem Grows.trans {s s' s'' : Search} (h : Grows s s') (h' : Grows s' s'') : Grows s s'' :=
  ⟨fun _ hm => h'.visited (h.visited hm), h.load ∘ h'.load,
    fun _ hm => h'.witnesses (h.witnesses hm)⟩

/-- The step has nothing more to offer: as long as the page load has not been found, where it leads
has been entered; and a registration is listed or does not run without the functions entered. -/
def Settled (g : Service) (s : Search) : Step → Prop
  | .direct node => s.onPageLoad = false →
    ∃ function, g.Within node (some function) ∧ function.id ∈ s.visited
  | .registration node => (∃ w ∈ s.witnesses, w.call = node) ∨ ¬ g.RunsWithout s.visited node

theorem Settled.grow {s s' : Search} {step : Step} (hs : Settled g s step) (h : Grows s s') :
    Settled g s' step := by
  cases step with
  | direct node =>
    intro hl
    obtain ⟨function, hw, hm⟩ := hs (h.load hl)
    exact ⟨function, hw, h.visited hm⟩
  | registration node =>
    refine hs.imp ?_ fun hn hr => hn (hr.anti h.visited)
    exact fun ⟨w, hw, hc⟩ => ⟨w, h.witnesses hw, hc⟩

/-- A registration that a search from `node` may list: of a function that runs `node` by direct
steps, and it runs itself. -/
def Lists (g : Service) (node : NodeId) (w : Witness) : Prop :=
  (∃ function, g.RunBy node function ∧ .registration w.call ∈ (g.steps function).1) ∧
    g.Runs (fun _ => True) w.call

/-- From `s` to `s'` on a search from `node`: found and entered is only what runs `node`, and
functions entered on the way are settled. -/
structure Advances (g : Service) (node : NodeId) (s s' : Search) : Prop where
  grows : Grows s s'
  bounded : Bounded g s'
  load : s'.onPageLoad = true → s.onPageLoad = true ∨ g.Runs Step.IsDirect node
  listed : ∀ w ∈ s'.witnesses, w ∈ s.witnesses ∨ Lists g node w
  entered : ∀ id ∈ s'.visited, id ∈ s.visited ∨ ∃ function, g.RunBy node function ∧ function.id = id
  distinct : (s.witnesses.map (·.call)).Nodup → (s'.witnesses.map (·.call)).Nodup
  settled : ∀ function, g.store.Holds function → function.id ∈ s'.visited →
    function.id ∉ s.visited → ∀ step ∈ (g.steps function).1, Settled g s' step

namespace Advances

variable {node : NodeId} {s s' s'' : Search}

theorem refl (hb : Bounded g s) : Advances g node s s where
  grows := .refl s
  bounded := hb
  load := .inl
  listed _ := .inl
  entered _ := .inl
  distinct := id
  settled _ _ hm hn := absurd hm hn

theorem trans (h : Advances g node s s') (h' : Advances g node s' s'') : Advances g node s s'' where
  grows := h.grows.trans h'.grows
  bounded := h'.bounded
  load hl := (h'.load hl).elim h.load .inr
  listed w hw := (h'.listed w hw).elim (h.listed w) .inr
  entered id hm := (h'.entered id hm).elim (h.entered id) .inr
  distinct hd := h'.distinct (h.distinct hd)
  settled function hf hm hn step hs := by
    by_cases hm' : function.id ∈ s'.visited
    · exact (h.settled function hf hm' hn step hs).grow h'.grows
    · exact h'.settled function hf hm hm' step hs

/-- What runs a node that runs the function around `node` runs `node`. -/
theorem of_direct {function : Node} (hw : g.Within node (some function)) {next : NodeId}
    (hs : .direct next ∈ (g.steps function).1) (h : Advances g next s s') : Advances g node s s' :=
  { h with
    load := fun hl => (h.load hl).imp id fun hr => .step hw hs trivial hr
    listed := fun w hm => (h.listed w hm).imp id fun ⟨⟨f, hby, hc⟩, hr⟩ =>
      ⟨⟨f, .step hw hs hby, hc⟩, hr⟩
    entered := fun id hm => (h.entered id hm).imp_right fun ⟨f, hby, hf⟩ =>
      ⟨f, .step hw hs hby, hf⟩ }

end Advances

/-- What a search from `node` makes of `s`. -/
structure Entered (g : Service) (node : NodeId) (s s' : Search) : Prop extends
    Advances g node s s' where
  start : Settled g s' (.direct node)

/-- A search that has found nothing has met every way that avoids the functions entered before. -/
theorem Entered.not_runsWithout {node : NodeId} {s s' : Search} (h : Entered g node s s')
    (hl : s'.onPageLoad = false) (hw : s'.witnesses = []) : ¬ g.RunsWithout s.visited node := by
  -- A way that meets a function entered on the way goes on from there by a step that is settled.
  have key : ∀ {m}, g.RunsWithout s.visited m → g.RunsWithout s'.visited m := by
    intro m hr
    induction hr with
    | load hw => exact .load hw
    | @step m function step hwm ho hs _ ih =>
      by_cases hm : function.id ∈ s'.visited
      · have hset := h.settled function hwm.holds hm ho step hs
        cases step with
        | direct next =>
          obtain ⟨f, hf, hfm⟩ := hset hl
          exact absurd hfm (ih.not_mem hf)
        | registration next => exact absurd ih (hset.resolve_left (by simp [hw]))
      · exact .step hwm hm hs ih
  intro hr
  obtain ⟨function, hf, hm⟩ := h.start hl
  exact (key hr).not_mem hf hm

/-- A search from the start that has not found the page load has met every direct way. -/
theorem Entered.not_runs {node : NodeId} {s' : Search} (h : Entered g node {} s')
    (hl : s'.onPageLoad = false) : ¬ g.Runs Step.IsDirect node := by
  have key : ∀ {m}, g.Runs Step.IsDirect m → ¬ Settled g s' (.direct m) := by
    intro m hr
    induction hr with
    | load hw =>
      intro hs
      obtain ⟨function, hf, -⟩ := hs hl
      cases hw.unique hf
    | @step m function step hwm hs hv _ ih =>
      intro hset
      obtain ⟨f, hf, hm⟩ := hset hl
      cases hwm.unique hf
      cases step with
      | direct next => exact ih (h.settled function hwm.holds hm (by simp) _ hs)
      | registration next => exact hv
  exact fun hr => key hr h.start

/-! ## The search, step by step -/

section

variable {enter : NodeId → Search → Except GraphFault Search} {room : Nat}

/-- `enter` searches as it should from states that have entered more than `room` functions. -/
def Enters (g : Service) (enter : NodeId → Search → Except GraphFault Search) (room : Nat) : Prop :=
  ∀ {node s s'}, Bounded g s → room < s.visited.length → enter node s = .ok s' → Entered g node s s'

/-- A step of a function that runs `node`. -/
structure Takes (g : Service) (node : NodeId) (step : Step) (s s' : Search) : Prop extends
    Advances g node s s' where
  taken : Settled g s' step

theorem register_takes (he : Enters g enter room) {node call : NodeId} {function : Node}
    (hw : g.Within node (some function)) (hm : .registration call ∈ (g.steps function).1)
    {s s' : Search} (hb : Bounded g s) (hr : room < s.visited.length)
    (h : register g enter call s = .ok s') : Takes g node (.registration call) s s' := by
  simp only [register] at h
  split at h
  · next hany =>
    cases h
    refine { Advances.refl hb with taken := .inl ?_ }
    simpa using hany
  next hany =>
  cases hn : enter call { visited := s.visited } with
  | error fault => rw [hn] at h; cases h
  | ok nested =>
    have hent : Entered g call { visited := s.visited } nested := he ⟨hb.distinct, hb.exist⟩ hr hn
    rw [hn] at h
    change ite _ _ _ = _ at h
    split at h
    · next hfound =>
      have hruns : g.Runs (fun _ => True) call := by
        rcases Bool.or_eq_true_iff.mp hfound with hl | hne
        · rcases hent.load hl with h' | h'
          · cases h'
          · exact h'.imp fun _ _ => trivial
        · obtain ⟨w, hw⟩ := List.exists_mem_of_ne_nil nested.witnesses (by simpa using hne)
          rcases hent.listed w hw with h' | ⟨⟨f, hby, hs⟩, hrun⟩
          · cases h'
          · exact hby.runs (fun _ => trivial) hs trivial hrun
      cases ht : g.statement call with
      | error fault => rw [ht] at h; cases h
      | ok top =>
      cases hv : g.render call true with
      | error fault => rw [ht, hv] at h; cases h
      | ok rendered =>
      rw [ht, hv] at h
      cases h
      exact {
        grows := ⟨fun _ h => h, id, List.subset_append_left _ _⟩
        bounded := ⟨hb.distinct, hb.exist⟩
        load := .inl
        listed := fun w hm' => by
          rcases List.mem_append.mp hm' with hm' | hm'
          · exact .inl hm'
          · rw [List.mem_singleton.mp hm']
            exact .inr ⟨⟨function, .here hw, hm⟩, hruns⟩
        entered := fun _ => .inl
        distinct := fun hd => by
          rw [List.map_append, List.nodup_append]
          refine ⟨hd, by simp, ?_⟩
          simp only [List.any_eq_true, beq_iff_eq, not_exists, not_and] at hany
          simpa using fun w hw => hany w hw
        settled := fun _ _ hm hn => absurd hm hn
        taken := .inl ⟨_, List.mem_append_right _ List.mem_cons_self, rfl⟩ }
    · next hnone =>
      cases h
      refine { Advances.refl hb with taken := .inr ?_ }
      simp only [Bool.or_eq_true, not_or, Bool.not_eq_true, Bool.not_eq_false',
        List.isEmpty_iff] at hnone
      exact hent.not_runsWithout hnone.1 hnone.2

theorem take_takes (he : Enters g enter room) {node : NodeId} {function : Node}
    (hw : g.Within node (some function)) {step : Step} (hm : step ∈ (g.steps function).1)
    {s s' : Search} (hb : Bounded g s) (hr : room < s.visited.length)
    (h : take g enter s step = .ok s') : Takes g node step s s' := by
  cases step with
  | registration call => exact register_takes he hw hm hb hr h
  | direct next =>
    have hent : Entered g next s s' := he hb hr h
    exact { hent.toAdvances.of_direct hw hm with taken := hent.start }

theorem foldlM_takes (he : Enters g enter room) {node : NodeId} {function : Node}
    (hw : g.Within node (some function)) {steps : List Step}
    (hm : ∀ step ∈ steps, step ∈ (g.steps function).1) {s s' : Search} (hb : Bounded g s)
    (hr : room < s.visited.length) (h : steps.foldlM (take g enter) s = .ok s') :
    Advances g node s s' ∧ ∀ step ∈ steps, Settled g s' step := by
  induction steps generalizing s with
  | nil => cases h; exact ⟨.refl hb, nofun⟩
  | cons step steps ih =>
    rw [List.foldlM_cons] at h
    cases ht : take g enter s step with
    | error fault => rw [ht] at h; cases h
    | ok s₁ =>
      rw [ht] at h
      have htake := take_takes he hw (hm step List.mem_cons_self) hb hr ht
      have hlen : s.visited.length ≤ s₁.visited.length :=
        (List.subperm_of_subset hb.distinct htake.grows.visited).length_le
      obtain ⟨hadv, hset⟩ := ih (fun a ha => hm a (List.mem_cons_of_mem _ ha)) htake.bounded
        (Nat.lt_of_lt_of_le hr hlen) h
      refine ⟨htake.toAdvances.trans hadv, List.forall_mem_cons.mpr ⟨?_, hset⟩⟩
      exact htake.taken.grow hadv.grows

theorem visit_entered (ha : g.store.AstAcyclic) (he : Enters g enter room) {node : NodeId}
    {s s' : Search} (hb : Bounded g s) (hr : room ≤ s.visited.length)
    (h : visit g enter node s = .ok s') : Entered g node s s' := by
  simp only [visit] at h
  split at h
  · next hl =>
    cases h
    exact { Advances.refl hb with start := fun hl' => by rw [hl] at hl'; cases hl' }
  cases hf : g.enclosingFunction? node with
  | error fault => rw [hf] at h; cases h
  | ok r =>
    rw [hf] at h
    have hw := Service.within_of_enclosingFunction? ha hf
    cases r with
    | none =>
      cases h
      exact {
        grows := ⟨fun _ h => h, by simp, fun _ h => h⟩
        bounded := ⟨hb.distinct, hb.exist⟩
        load := fun _ => .inr (.load hw)
        listed := fun _ => .inl
        entered := fun _ => .inl
        distinct := id
        settled := fun _ _ hm hn => absurd hm hn
        start := fun hl => by cases hl }
    | some function =>
      change ite _ _ _ = _ at h
      split at h
      · next hm =>
        cases h
        refine { Advances.refl hb with start := fun _ => ⟨function, hw, ?_⟩ }
        simpa using hm
      next hm =>
      replace hm : function.id ∉ s.visited := by simpa using hm
      cases hs : (g.steps function).1.foldlM (take g enter)
          { s with visited := function.id :: s.visited } with
      | error fault => rw [hs] at h; cases h
      | ok s₁ =>
        rw [hs] at h
        simp only [bind, Except.bind] at h
        split at h
        · cases h
        cases h
        have hb₀ : Bounded g { s with visited := function.id :: s.visited } :=
          ⟨List.nodup_cons.mpr ⟨hm, hb.distinct⟩,
            List.forall_mem_cons.mpr ⟨hw.holds.hasNode, hb.exist⟩⟩
        obtain ⟨hadv, hset⟩ := foldlM_takes he hw (fun _ h => h) hb₀ (by simp; omega) hs
        have hin : function.id ∈ s'.visited := hadv.grows.visited List.mem_cons_self
        exact {
          grows := ⟨fun _ h => hadv.grows.visited (List.mem_cons_of_mem _ h), hadv.grows.load,
            hadv.grows.witnesses⟩
          bounded := hadv.bounded
          load := hadv.load
          listed := hadv.listed
          entered := fun id hid => by
            rcases hadv.entered id hid with hid | hby
            · exact (List.mem_cons.mp hid).symm.imp_right fun heq => ⟨function, .here hw, heq.symm⟩
            · exact .inr hby
          distinct := hadv.distinct
          settled := fun other ho hm' hn step hstep => by
            by_cases heq : other.id = function.id
            · rw [ho.eq hw.holds heq] at hstep
              exact hset step hstep
            · exact hadv.settled other ho hm' (by simp [heq, hn]) step hstep
          start := fun _ => ⟨function, hw, hin⟩ }

end

/-- Each search inside another has entered one function more, so a bound on how deep they lie that
the number of nodes allows is never met. -/
theorem enterUpTo_entered (ha : g.store.AstAcyclic) {fuel : Nat} {node : NodeId} {s s' : Search}
    (hb : Bounded g s) (hr : g.store.nodeCount < fuel + s.visited.length)
    (h : enterUpTo g fuel node s = .ok s') : Entered g node s s' := by
  induction fuel generalizing node s s' with
  | zero =>
    have := Store.length_le_nodeCount hb.distinct hb.exist
    omega
  | succ fuel ih =>
    have henter : Enters g (enterUpTo g fuel) (g.store.nodeCount - fuel) :=
      fun hb hr h => ih hb (by omega) h
    exact visit_entered ha henter hb (by omega) h

end Search

namespace Service

variable {g : Service}

theorem exists_entered (ha : g.store.AstAcyclic) (hg : g.Answers) (node : NodeId) :
    ∃ s, g.reach node = .ok s.verdict ∧ Search.Entered g node {} s := by
  obtain ⟨v, hv, -⟩ := (reach_agree hg.alike (fun _ => hg.events) node).exists_ok
  rw [reach] at hv ⊢
  cases hs : Search.enterUpTo g (g.store.nodeCount + 1) node {} with
  | error fault => rw [hs] at hv; cases hv
  | ok s =>
    refine ⟨s, rfl, Search.enterUpTo_entered ha ⟨List.nodup_nil, nofun⟩ ?_ hs⟩
    exact Nat.lt_succ_self _

/-- A search has found nothing exactly when the node does not run. -/
theorem verdict_eq_unreachable {node : NodeId} {s : Search} (h : Search.Entered g node {} s) :
    s.verdict = .unreachable ↔ ¬ g.Runs (fun _ => True) node := by
  unfold Search.verdict
  split
  · next hl =>
    have hrun := (h.load hl).resolve_left nofun
    simpa using hrun.imp fun _ _ => trivial
  next hl =>
  split
  · next hw =>
    have hnot := h.not_runsWithout (by simpa using hl) (by simpa using hw)
    simpa using fun hr : g.Runs _ node => hnot hr.runsWithout
  next hw =>
  obtain ⟨w, hw⟩ := List.exists_mem_of_ne_nil s.witnesses (by simpa using hw)
  obtain ⟨⟨f, hby, hs⟩, hrun⟩ := (h.listed w hw).resolve_left nofun
  simpa using hby.runs (fun _ => trivial) hs trivial hrun

theorem verdict_eq_onPageLoad {node : NodeId} {s : Search} (h : Search.Entered g node {} s) :
    s.verdict = .onPageLoad ↔ g.Runs Step.IsDirect node := by
  have hload : s.verdict = .onPageLoad ↔ s.onPageLoad = true := by
    unfold Search.verdict
    split
    · next hl => simp [hl]
    · next hl => split <;> simp [hl]
  rw [hload]
  constructor
  · exact fun hl => (h.load hl).resolve_left nofun
  · intro hr
    by_contra hl
    exact h.not_runs (by simpa using hl) hr

/-- **The verdict is exact.** A node runs on page load when direct steps lead to a node with no
function around it, and never runs when not even registrations help. Otherwise the verdict lists
distinct registrations, each of a function that runs the node, and each of which runs itself. -/
theorem reach_exact (ha : g.store.AstAcyclic) (hg : g.Answers) (node : NodeId) :
    (g.reach node = .ok .onPageLoad ↔ g.Runs Step.IsDirect node) ∧
    (g.reach node = .ok .unreachable ↔ ¬ g.Runs (fun _ => True) node) ∧
    (¬ g.Runs Step.IsDirect node → g.Runs (fun _ => True) node →
      ∃ ws, g.reach node = .ok (.witnesses ws) ∧ ws ≠ [] ∧ (ws.map (·.call)).Nodup ∧
        ∀ w ∈ ws, (∃ function, g.RunBy node function ∧
            .registration w.call ∈ (g.steps function).1) ∧
          ∃ verdict, g.reach w.call = .ok verdict ∧ verdict ≠ .unreachable) := by
  obtain ⟨s, hs, h⟩ := exists_entered ha hg node
  simp only [hs, Except.ok.injEq]
  refine ⟨verdict_eq_onPageLoad h, verdict_eq_unreachable h, fun hdirect hruns => ?_⟩
  have hload : s.onPageLoad ≠ true := fun hl => hdirect ((h.load hl).resolve_left nofun)
  have hsome : s.witnesses ≠ [] := fun hnil =>
    h.not_runsWithout (by simpa using hload) hnil hruns.runsWithout
  refine ⟨s.witnesses, ?_, hsome, h.distinct List.nodup_nil, fun w hw => ?_⟩
  · simp [Search.verdict, hload, hsome]
  · obtain ⟨hby, hrun⟩ := (h.listed w hw).resolve_left nofun
    obtain ⟨t, ht, h'⟩ := exists_entered ha hg w.call
    exact ⟨hby, t.verdict, ht, fun hv => (verdict_eq_unreachable h').mp hv hrun⟩

/-- A page that passes a function to `onClick`. -/
def handlerPage : Store :=
  .ofLists
    [{ id := 1, type := .program }, { id := 2, type := .expressionStatement },
     { id := 3, type := .callExpression }, { id := 4, type := .identifier, code := "onClick" },
     { id := 5, type := .functionExpression }, { id := 6, type := .blockStatement },
     { id := 7, type := .expressionStatement }]
    [{ source := 1, target := 2, relation := .ast, relationType := "body" },
     { source := 2, target := 3, relation := .ast, relationType := "expression" },
     { source := 3, target := 4, relation := .ast, relationType := "callee" },
     { source := 3, target := 5, relation := .ast, relationType := "arguments" },
     { source := 5, target := 6, relation := .ast, relationType := "body" },
     { source := 6, target := 7, relation := .ast, relationType := "body" }]

/-- A handler runs, not on page load but because its registration runs. -/
theorem reach_exact_handlerPage :
    handlerPage.AstAcyclic ∧ handlerPage.service.Answers ∧
    ¬ handlerPage.service.Runs Step.IsDirect 7 ∧ handlerPage.service.Runs (fun _ => True) 7 ∧
    ∃ ws, handlerPage.service.reach 7 = .ok (.witnesses ws) ∧ ws ≠ [] ∧ (ws.map (·.call)).Nodup ∧
      ∀ w ∈ ws, (∃ function, handlerPage.service.RunBy 7 function ∧
          .registration w.call ∈ (handlerPage.service.steps function).1) ∧
        ∃ verdict, handlerPage.service.reach w.call = .ok verdict ∧ verdict ≠ .unreachable := by
  have ha : handlerPage.AstAcyclic := Store.astAcyclic_of_lt (by decide +kernel)
  have hg : handlerPage.service.Answers := answers_of_closed (by decide +kernel)
  have hv : handlerPage.service.reach 7 =
      .ok (.witnesses [⟨3, 2, "onClick(function() {...})"⟩]) := by decide +kernel
  obtain ⟨hload, hnever, hlisted⟩ := reach_exact ha hg 7
  have hdirect : ¬ handlerPage.service.Runs Step.IsDirect 7 := by rw [← hload, hv]; nofun
  have hruns : handlerPage.service.Runs (fun _ => True) 7 := by
    by_contra hn
    rw [← hnever, hv] at hn
    cases hn
  exact ⟨ha, hg, hdirect, hruns, hlisted hdirect hruns⟩

end Service

end RequestFlow

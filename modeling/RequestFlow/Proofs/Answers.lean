/-
The queries of an analysis, one after the other. The names of an argument are
traced in turn, and so are the sinks, all on one tracer and against one clock.
Owners and notes of earlier queries make no difference to what a query finds, so
each ends as it does on a new tracer, in the time that the queries before it have
left. `Run.answers` lists how the queries for one argument end, and `Run.timed`
the time at which each sink is come to.
-/
import RequestFlow.Proofs.History

namespace RequestFlow

namespace Run

variable {keep : Bool} {store : Store} (run : Run)

/-- How a query for a name of an argument ended: the name and its place, what was asked for and in what
time, and the key that slices are listed under. -/
structure Answer where
  entry : String × NodeId
  target : Tracer.Target
  key : String
  time : Deadline
  outcome : Except GraphFault Unit
  tracer : Tracer

/-- How the queries for some names end, each on a new tracer and in the time that is left. -/
def answers (g : Service) (statement : NodeId) : Deadline → List (String × NodeId) → List Answer
  | _, [] => []
  | time, entry :: rest =>
    match run.target? entry.1 entry.2 with
    | none => answers g statement time rest
    | some (target, key) =>
      let (outcome, tracer) := (Tracer.new g).query (run.within time) target statement
      ⟨entry, target, key, time, outcome, tracer⟩ :: answers g statement tracer.deadline rest

/-- How the queries for the names in the argument of a sink end. -/
def answersAt (g : Service) (time : Deadline) (sink : Sink) : List Answer :=
  run.answers g ((g.statement sink.node.id).toOption.getD sink.node).id time (Parts.of g sink).names

/-- The time that is left after queries. -/
def timeLeft (time : Deadline) (answers : List Answer) : Deadline :=
  answers.foldl (fun _ answer => answer.tracer.deadline) time

/-- Each sink with the time that is left when the analysis comes to it. -/
def timed (g : Service) : Deadline → List Sink → List (Deadline × Sink)
  | _, [] => []
  | time, sink :: rest => (time, sink) :: timed g (timeLeft time (run.answersAt g time sink)) rest

/-- No sink is left out. -/
theorem map_snd_timed (g : Service) (time : Deadline) (sinks : List Sink) :
    (run.timed g time sinks).map (·.2) = sinks := by
  induction sinks generalizing time with
  | nil => rfl
  | cons sink rest ih => exact congrArg (sink :: ·) (ih _)

/-- The answers are to queries for some of the names. -/
theorem of_mem_answers {g : Service} {statement : NodeId} {time : Deadline}
    {entries : List (String × NodeId)} {answer : Answer}
    (h : answer ∈ run.answers g statement time entries) :
    answer.entry ∈ entries ∧
    run.target? answer.entry.1 answer.entry.2 = some (answer.target, answer.key) ∧
    (Tracer.new g).query (run.within answer.time) answer.target statement =
      (answer.outcome, answer.tracer) := by
  induction entries generalizing time with
  | nil => cases h
  | cons entry rest ih =>
    rw [answers] at h
    split at h
    · exact ⟨List.mem_cons_of_mem _ (ih h).1, (ih h).2⟩
    · next target key ht =>
      rcases List.mem_cons.mp h with rfl | h
      · exact ⟨List.mem_cons_self, ht, rfl⟩
      · exact ⟨List.mem_cons_of_mem _ (ih h).1, (ih h).2⟩

/-! ## Names one after the other -/

/-- A flow in the making, with an answer added. -/
def record (f : FlowTrace) (answer : Answer) : FlowTrace :=
  run.add answer.key f (answer.outcome, answer.tracer)

/-- The same has been found so far, in the same time. -/
structure FoundAlike (f f' : FlowTrace) : Prop where
  slices : f.slices = f'.slices
  types : f.types = f'.types
  isPartial : f.isPartial = f'.isPartial
  deadline : f.tracer.deadline = f'.tracer.deadline

theorem deadline_foldl_record (f : FlowTrace) (answers : List Answer) :
    (answers.foldl run.record f).tracer.deadline = timeLeft f.tracer.deadline answers := by
  induction answers generalizing f with
  | nil => rfl
  | cons answer answers ih => exact ih (run.record f answer)

/-- A query that fails or is cut short makes a flow partial. -/
theorem isPartial_foldl_record (f : FlowTrace) (answers : List Answer) :
    (answers.foldl run.record f).isPartial = true ↔ f.isPartial = true ∨
      ∃ answer ∈ answers, answer.outcome.isOk = false ∨ answer.tracer.truncation.isSome = true := by
  induction answers generalizing f with
  | nil => simp
  | cons answer answers ih =>
    rw [List.foldl_cons, ih, List.exists_mem_cons_iff, ← or_assoc]
    refine or_congr_left ?_
    simp only [record, add, Bool.or_eq_true, Bool.not_eq_true', or_assoc]

/-- Names are traced as if each were the first. -/
theorem traceNames_fresh {f f' : FlowTrace} (hf : Kept keep store.service f.tracer)
    (ha : FoundAlike f f') (statement : NodeId) (entries : List (String × NodeId)) :
    Kept keep store.service (entries.foldl ((run.keeping keep).traceName statement) f).tracer ∧
    FoundAlike (entries.foldl ((run.keeping keep).traceName statement) f)
      (((run.keeping keep).answers store.service statement f'.tracer.deadline entries).foldl
        (run.keeping keep).record f') := by
  induction entries generalizing f f' with
  | nil => exact ⟨hf, ha⟩
  | cons entry rest ih =>
    rw [List.foldl_cons, traceName_eq, answers]
    have htarget : (run.keeping keep).target? entry.1 entry.2 = run.target? entry.1 entry.2 := rfl
    rw [htarget]
    cases run.target? entry.1 entry.2 with
    | none => exact ih hf ha
    | some asked =>
      obtain ⟨target, key⟩ := asked
      rw [ha.deadline]
      obtain ⟨houtcome, htwins⟩ := (Tracer.query_ends_of_kept hf (.new keep _)
        (run.within f'.tracer.deadline) target statement {}).same
      refine ih ⟨htwins.resolvers.1, htwins.left⟩ ⟨?_, ?_, ?_, htwins.deadline⟩
      · simp only [add, htwins.slices, ha.slices]; rfl
      · simp only [add, htwins.slices, ha.types]; rfl
      · simp only [add, houtcome, htwins.truncation, ha.isPartial]; rfl

/-! ## Sinks one after the other -/

/-- What is found for the names of an argument in that time, each traced as if it were the first. -/
def found (g : Service) (t : Tracer) (sink : Sink) : FlowTrace :=
  (run.answersAt g t.deadline sink).foldl run.record (run.start (Parts.of g sink) t sink)

/-- A flow has what is found for the names of its argument. -/
theorem flow_fresh {t : Tracer} (hk : Kept keep store.service t) {sink : Sink}
    (hs : sink.Held store.service) :
    Kept keep store.service ((run.keeping keep).flow t sink).2 ∧
    FoundAlike ((run.keeping keep).traced (Parts.of t.graph sink) t sink)
      ((run.keeping keep).found store.service t sink) := by
  rw [flow_eq, ← Parts.of_alike hk.honest.alike hs]
  exact traceNames_fresh run hk ⟨rfl, rfl, rfl, rfl⟩ _ _

theorem flow_deadline {t : Tracer} (hk : Kept keep store.service t) {sink : Sink}
    (hs : sink.Held store.service) :
    ((run.keeping keep).flow t sink).2.deadline =
      timeLeft t.deadline ((run.keeping keep).answersAt store.service t.deadline sink) :=
  (flow_fresh run hk hs).2.deadline.trans (deadline_foldl_record _ _ _)

/-- What holds of the flow of each sink in the time that is left for it, whatever was traced before,
holds of all flows. -/
theorem forall₂_flows {P : Deadline → Sink → Flow → Prop}
    (hflow : ∀ {t sink}, Kept keep store.service t → sink.Held store.service →
      P t.deadline sink ((run.keeping keep).flow t sink).1)
    {t : Tracer} (hk : Kept keep store.service t) {sinks : List Sink}
    (hs : ∀ sink ∈ sinks, sink.Held store.service) :
    List.Forall₂ (fun timed flow => P timed.1 timed.2 flow)
      ((run.keeping keep).timed store.service t.deadline sinks)
      ((run.keeping keep).flows t sinks).1 := by
  induction sinks generalizing t with
  | nil => exact .nil
  | cons sink rest ih =>
    have hheld := hs sink List.mem_cons_self
    refine .cons (hflow hk hheld) ?_
    rw [← flow_deadline run hk hheld]
    exact ih (flow_fresh run hk hheld).1 fun s hm => hs s (List.mem_cons_of_mem _ hm)

end Run

end RequestFlow

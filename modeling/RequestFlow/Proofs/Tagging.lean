/-
The types of a flow. They are the type of its sink, the types that the code of
the argument gives, and those of the slices found for the names in it. A slice is
tagged by its code and by its names; an argument by its code alone, so that a
type that only its names give has to be found by tracing them. For a name that
is taken for granted, such as `location`, nothing is traced.
-/
import RequestFlow.Proofs.Closed
import RequestFlow.Proofs.Semantic.Tags

namespace RequestFlow

namespace Run

variable {keep : Bool} {store : Store} (run : Run)

/-- A slice that an answer has found has the type. -/
def Finds (answer : Answer) (type : SemanticType) : Prop :=
  ∃ slice ∈ answer.tracer.slices.slices,
    type ∈ (run.fingerprints.tagSlice slice run.documentVariables).types

theorem mem_foldl_record {type : SemanticType} (ht : type ≠ .nonReach) {f : FlowTrace}
    {answers : List Answer} :
    type ∈ (answers.foldl run.record f).types.types ↔
      type ∈ f.types.types ∨ ∃ answer ∈ answers, run.Finds answer type := by
  induction answers generalizing f with
  | nil => simp
  | cons answer answers ih =>
    rw [List.foldl_cons, ih, List.exists_mem_cons_iff, ← or_assoc]
    refine or_congr_left ?_
    exact (TypeSet.mem_union_of_ne ht).trans (or_congr_right (Fingerprints.mem_tagSlices ht))

/-- A flow has a type: it is that of the sink, the code of the argument gives it, or it is found for
a name of the argument in the time that is left. -/
def Explains (g : Service) (time : Deadline) (sink : Sink) (argument : Rendered) (statement : NodeId)
    (type : SemanticType) : Prop :=
  type = sink.family.semanticType ∨ type ∈ run.fingerprints.typesOf [] (.code argument.code) ∨
    ∃ answer ∈ run.answers g statement time argument.identifiers.entries, run.Finds answer type

theorem mem_flow_types {t : Tracer} (hk : Kept keep store.service t) {sink : Sink}
    (hs : sink.Held store.service) {type : SemanticType} (ht : type ≠ .nonReach) :
    type ∈ ((run.keeping keep).flow t sink).1.types.types ↔
      (run.keeping keep).Explains store.service t.deadline sink
        ((store.service.renderNode sink.argument).toOption.getD {})
        ((store.service.statement sink.node.id).toOption.getD sink.node).id type := by
  have htypes : ((run.keeping keep).flow t sink).1.types = _ := (flow_fresh run hk hs).2.types
  rw [htypes, found, mem_foldl_record _ ht, Explains, ← or_assoc]
  refine or_congr_left ?_
  exact (TypeSet.mem_insert_of_ne ht).trans (or_congr_right (Fingerprints.mem_tagCode ht))

/-- How the types of a flow compare with those of the argument of its sink, taken as a slice. -/
structure TagsArgument (g : Service) (time : Deadline) (sink : Sink) (flow : Flow)
    (argument : Rendered) (statement : Node) : Prop where
  rendered : g.renderNode sink.argument = .ok argument
  around : g.statement sink.node.id = .ok statement
  /-- The flow has no types but those that can be explained. -/
  explained : ∀ type ≠ .nonReach,
    type ∈ flow.types.types ↔ run.Explains g time sink argument statement.id type
  /-- What the code of the argument gives is never lost. -/
  code : ∀ type ≠ .nonReach,
    type ∈ (run.fingerprints.tagCode argument.code).types → type ∈ flow.types.types
  /-- What the slice has, the flow has as well, exactly when the types that the names give by
  themselves are explained otherwise. -/
  slice : (∀ type ≠ .nonReach,
      type ∈ (run.fingerprints.tagSlice (.ofRendered argument.code argument sink.argument) []).types →
      type ∈ flow.types.types) ↔
    ∀ name ∈ argument.identifiers.names, ∀ type ≠ .nonReach,
      type ∈ run.fingerprints.typesOf [] (.name name) →
      run.Explains g time sink argument statement.id type

variable {run}

theorem tagsArgument {g : Service} {time : Deadline} {sink : Sink} {flow : Flow}
    {argument : Rendered} {statement : Node} (hargument : g.renderNode sink.argument = .ok argument)
    (hstatement : g.statement sink.node.id = .ok statement)
    (htypes : ∀ type ≠ .nonReach,
      type ∈ flow.types.types ↔ run.Explains g time sink argument statement.id type) :
    run.TagsArgument g time sink flow argument statement := by
  refine ⟨hargument, hstatement, htypes, ?_, ?_, ?_⟩
  · intro type ht hcode
    exact (htypes type ht).mpr (.inr (.inl ((Fingerprints.mem_tagCode ht).mp hcode)))
  · intro hslice name hm type ht hname
    exact (htypes type ht).mp
      (hslice type ht ((Fingerprints.mem_tagSlice ht).mpr (.inr ⟨name, hm, hname⟩)))
  · intro hnames type ht hslice
    rw [htypes type ht]
    rcases (Fingerprints.mem_tagSlice ht).mp hslice with hcode | ⟨name, hm, hname⟩
    · exact .inr (.inl hcode)
    · exact hnames name hm type ht hname

end Run

namespace Engine

variable {store : Store}

/-- The types of all flows of an analysis. -/
theorem forall₂_types (engine : Engine) (page : Page) {sinks : List Sink}
    (hsinks : store.service.sinks (engine.scope page) = .ok sinks) :
    List.Forall₂ (fun timed flow => timed.2.Held store.service ∧ flow.node = timed.2.node.id ∧
        ∀ type ≠ .nonReach, type ∈ flow.types.types ↔
          (engine.run page).Explains store.service timed.1 timed.2
            ((store.service.renderNode timed.2.argument).toOption.getD {})
            ((store.service.statement timed.2.node.id).toOption.getD timed.2.node).id type)
      ((engine.run page).timed store.service (engine.traceOptions page).deadline sinks)
      (engine.analyse store.service page).1.flows := by
  obtain ⟨-, hheld⟩ := (Service.sinks_agree (.self _) _).of_ok hsinks
  unfold analyse
  rw [hsinks]
  refine Run.forall₂_flows (engine.run page)
    (P := fun time sink flow => sink.Held store.service ∧ flow.node = sink.node.id ∧
      ∀ type ≠ .nonReach, type ∈ flow.types.types ↔
        (engine.run page).Explains store.service time sink
          ((store.service.renderNode sink.argument).toOption.getD {})
          ((store.service.statement sink.node.id).toOption.getD sink.node).id type)
    ?_ (.tracer _ _ (engine.run page)) hheld
  intro t sink hk hs
  exact ⟨hs, rfl, fun type ht => Run.mem_flow_types (engine.run page) hk hs ht⟩

/-- **The types of an argument, against those of a slice.** On a closed graph each sink that the
scan finds has its flow. The flow has every type that the code of its argument gives; and it has
all that a slice of the same code and names would have exactly when each type that a name of the
argument gives by itself is that of the sink, is given by the code, or is found by tracing in the
time that is left. -/
theorem analyse_tags_argument (hc : store.Closed) (engine : Engine) (page : Page) :
    ∃ sinks, store.service.sinks (engine.scope page) = .ok sinks ∧
      List.Forall₂ (fun timed flow => ∃ argument statement,
          (engine.run page).TagsArgument store.service timed.1 timed.2 flow argument statement)
        ((engine.run page).timed store.service (engine.traceOptions page).deadline sinks)
        (engine.analyse store.service page).1.flows := by
  obtain ⟨sinks, hsinks, -⟩ :=
    (Service.sinks_agree (.of_closed hc) (engine.scope page)).exists_ok
  refine ⟨sinks, hsinks, (forall₂_types engine page hsinks).imp ?_⟩
  rintro ⟨time, sink⟩ flow ⟨hs, -, htypes⟩
  obtain ⟨argument, hargument, -⟩ :=
    (Service.renderNode_agree (.of_closed hc) hs.argument false).exists_ok
  obtain ⟨statement, hstatement⟩ := (Service.answersAt_of_closed hc hs.node.hasNode).statement
  rw [hargument, hstatement] at htypes
  exact ⟨argument, statement, Run.tagsArgument hargument hstatement htypes⟩

end Engine

/-- The page `fetch(location); var target = location; fetch(target); fetch(target)`. -/
def sourcePage : Store :=
  .ofLists
    [{ id := 1, type := .program },
     { id := 2, type := .expressionStatement }, { id := 3, type := .callExpression },
     { id := 4, type := .identifier, code := "fetch" },
     { id := 5, type := .identifier, code := "location" },
     { id := 6, type := .variableDeclaration, kind := "var" },
     { id := 7, type := .variableDeclarator },
     { id := 8, type := .identifier, code := "target" },
     { id := 9, type := .identifier, code := "location" },
     { id := 10, type := .expressionStatement }, { id := 11, type := .callExpression },
     { id := 12, type := .identifier, code := "fetch" },
     { id := 13, type := .identifier, code := "target" },
     { id := 14, type := .expressionStatement }, { id := 15, type := .callExpression },
     { id := 16, type := .identifier, code := "fetch" },
     { id := 17, type := .identifier, code := "target" }]
    [{ source := 1, target := 2, relation := .ast, relationType := "body" },
     { source := 2, target := 3, relation := .ast, relationType := "expression" },
     { source := 3, target := 4, relation := .ast, relationType := "callee" },
     { source := 3, target := 5, relation := .ast, relationType := "arguments" },
     { source := 1, target := 6, relation := .ast, relationType := "body" },
     { source := 6, target := 7, relation := .ast, relationType := "declarations" },
     { source := 7, target := 8, relation := .ast, relationType := "id" },
     { source := 7, target := 9, relation := .ast, relationType := "init" },
     { source := 1, target := 10, relation := .ast, relationType := "body" },
     { source := 10, target := 11, relation := .ast, relationType := "expression" },
     { source := 11, target := 12, relation := .ast, relationType := "callee" },
     { source := 11, target := 13, relation := .ast, relationType := "arguments" },
     { source := 1, target := 14, relation := .ast, relationType := "body" },
     { source := 14, target := 15, relation := .ast, relationType := "expression" },
     { source := 15, target := 16, relation := .ast, relationType := "callee" },
     { source := 15, target := 17, relation := .ast, relationType := "arguments" },
     { source := 6, target := 10, relation := .pdg, arguments := "target" },
     { source := 6, target := 14, relation := .pdg, arguments := "target" }]

namespace sourcePage

/-- An analysis that knows two sources by their names. -/
def engine : Engine where
  config := { layout := false }
  builtins := ⟨["fetch", "location"]⟩
  fingerprints := { table := [⟨.rdWinLoc, .name "location"⟩, ⟨.domclobWin, .name "target"⟩] }
  disabled := []

/-- The sink `fetch(location)`. -/
def direct : Sink :=
  ⟨.fetch, { id := 3, type := .callExpression },
    { id := 5, type := .identifier, code := "location" }⟩

/-- The sinks `fetch(target)`. -/
def assigned : Sink :=
  ⟨.fetch, { id := 11, type := .callExpression },
    { id := 13, type := .identifier, code := "target" }⟩

def again : Sink :=
  ⟨.fetch, { id := 15, type := .callExpression },
    { id := 17, type := .identifier, code := "target" }⟩

theorem sinks : sourcePage.service.sinks {} = .ok [direct, assigned, again] := by decide +kernel

theorem closed : sourcePage.Closed := by decide +kernel

/-- A page on which the deadline passes at the second reading of the clock. -/
def page : Page := { deadline := ⟨some 1⟩ }

/-- The first trace takes the time that there is. -/
theorem timed : (engine.run page).timed sourcePage.service (engine.traceOptions page).deadline
      [direct, assigned, again] =
    [(⟨some 1⟩, direct), (⟨some 1⟩, assigned), (⟨some 0⟩, again)] := by decide +kernel

end sourcePage

/-- Of the two sources the variable is found by tracing it, with what is assigned to it. When it is
come to again, the deadline has passed. -/
theorem Engine.analyse_tags_argument_sourcePage :
    sourcePage.Closed ∧
    (sourcePage.engine.analyse sourcePage.service sourcePage.page).1.flows.map
        (fun flow => (flow.isPartial, flow.types.types)) =
      [(false, [.wrReqUrl]), (false, [.rdWinLoc, .domclobWin, .wrReqUrl]), (true, [.wrReqUrl])] ∧
    List.Forall₂ (fun timed flow => ∃ argument statement,
        (sourcePage.engine.run sourcePage.page).TagsArgument sourcePage.service timed.1 timed.2 flow
          argument statement)
      [(⟨some 1⟩, sourcePage.direct), (⟨some 1⟩, sourcePage.assigned), (⟨some 0⟩, sourcePage.again)]
      (sourcePage.engine.analyse sourcePage.service sourcePage.page).1.flows := by
  obtain ⟨sinks, hsinks, hflows⟩ :=
    Engine.analyse_tags_argument sourcePage.closed sourcePage.engine sourcePage.page
  cases sourcePage.sinks.symm.trans hsinks
  rw [sourcePage.timed] at hflows
  exact ⟨sourcePage.closed, by decide +kernel, hflows⟩

namespace Builtins

variable {builtins : Builtins} {name : String}

theorem mem_insert_of_mem (h : name ∈ builtins.names) (other : String) :
    name ∈ (builtins.insert other).names := by
  unfold insert
  dsimp only
  split
  · exact h
  · exact List.mem_cons_of_mem _ h

theorem mem_insert_self (ht : Text.trim name = name) (he : name.isEmpty = false) :
    name ∈ (builtins.insert name).names := by
  unfold insert
  dsimp only
  rw [ht, he]
  split
  · next h => simpa using h
  · exact List.mem_cons_self

theorem mem_extend_of_mem {names : List String} (h : name ∈ builtins.names) :
    name ∈ (builtins.extend names).names := by
  induction names generalizing builtins with
  | nil => exact h
  | cons other names ih =>
    rw [extend, List.foldl_cons, ← extend]
    exact ih (mem_insert_of_mem h other)

/-- Names that are added are there. -/
theorem mem_extend {names : List String} (hm : name ∈ names) (ht : Text.trim name = name)
    (he : name.isEmpty = false) : name ∈ (builtins.extend names).names := by
  induction names generalizing builtins with
  | nil => cases hm
  | cons other names ih =>
    rw [extend, List.foldl_cons, ← extend]
    rcases List.mem_cons.mp hm with rfl | hm
    · exact mem_extend_of_mem (mem_insert_self ht he)
    · exact ih hm

end Builtins

namespace Pattern

/-- From no place a match leads nowhere. -/
theorem ends_nil (p : Pattern) : p.ends [] = [] := by
  have hreach : ∀ step : Places → Places, step [] = [] → Places.reachable step [] = [] := by
    intro step hstep
    simp [Places.reachable, Places.closure, hstep, Places.diff]
  induction p with
  | empty => rfl
  | set => rfl
  | start => rfl
  | stop => rfl
  | wordEdge => rfl
  | inWord => rfl
  | seq p q ihp ihq => rw [ends, ihp, ihq]
  | alt p q ihp ihq => rw [ends, ihp, ihq, Places.union]
  | star p ih => exact hreach p.ends ih
  | plus p ih => rw [ends, ih]; exact hreach p.ends ih

/-- A whole word that starts with a text does not occur where that text does not. -/
theorem occursIn_whole_of_nil {p q : Pattern} {text : String}
    (h : p.ends (wordEdge.ends (Places.all text)) = []) :
    (whole (p ++ q)).occursIn text = false := by
  have hends : (whole (p ++ q)).ends (Places.all text) = [] := by
    calc (whole (p ++ q)).ends (Places.all text)
      _ = wordEdge.ends (q.ends (p.ends (wordEdge.ends (Places.all text)))) := rfl
      _ = [] := by rw [h, ends_nil, ends_nil]
  rw [occursIn, hends]
  rfl

end Pattern

/-- No fingerprint of the page's location fits the code `location`. -/
theorem Fingerprints.not_mem_typesOf_location :
    .rdWinLoc ∉ Fingerprints.defaults.typesOf [] (.code "location") := by
  have hlocation : ∀ mark ∈ locationSources, mark.type = .rdWinLoc →
      mark.mark.fits (.code "location") = false := by
    simp only [locationSources, List.forall_mem_cons]
    refine ⟨fun _ => ?_, fun _ => ?_, fun _ => ?_, fun _ => ?_, fun _ => rfl, nofun, by simp⟩
    · decide +kernel
    · exact Pattern.occursIn_whole_of_nil (by decide +kernel)
    · exact Pattern.occursIn_whole_of_nil (by decide +kernel)
    · decide +kernel
  have hothers : ∀ mark ∈ documentSources ++ elementSources ++ messageSources,
      mark.type ≠ .rdWinLoc := by decide +kernel
  intro hcode
  rcases List.mem_append.mp hcode with hcode | hcode
  · obtain ⟨mark, hmark, htype⟩ := List.mem_map.mp hcode
    obtain ⟨hmark, hfits⟩ := List.mem_filter.mp hmark
    simp only [defaults, List.append_assoc] at hmark
    rcases List.mem_append.mp hmark with hmark | hmark
    · rw [hlocation mark hmark htype] at hfits
      cases hfits
    · exact hothers mark (by simpa using hmark) htype
  · cases hcode

/-- Neither the sink nor the code `location` says that the page's location is read, and the name is
not traced. -/
theorem sourcePage.not_explains (g : Service) (time : Deadline) (statement : NodeId) :
    ¬ ((Engine.ofConfig {}).run {}).Explains g time sourcePage.direct
      { code := "location", identifiers := ⟨[("location", 5)]⟩ } statement .rdWinLoc := by
  rintro (hsink | hcode | ⟨answer, hm, -⟩)
  · cases hsink
  · exact Fingerprints.not_mem_typesOf_location hcode
  · obtain ⟨hentry, hasked, -⟩ := Run.of_mem_answers _ hm
    have hglobal : "location" ∈ Builtins.globals := by decide
    have hbuiltin : "location" ∈ Builtins.defaults.names := by
      rw [Builtins.defaults]
      refine Builtins.mem_extend ?_ (by decide +kernel) (by decide)
      simp only [List.mem_append, hglobal, true_or]
    have htarget : ((Engine.ofConfig {}).run {}).target? "location" 5 = none := by
      rw [Run.target?, if_neg (by decide), if_pos]
      exact List.contains_iff_mem.mpr (Builtins.mem_extend_of_mem hbuiltin)
    rw [List.mem_singleton.mp hentry, htarget] at hasked
    cases hasked

/-- With the sources and the names that every analysis starts with, `fetch(location)` does not read
the page's location. -/
theorem Engine.analyse_sourcePage_direct :
    sourcePage.Closed ∧ sourcePage.AstAcyclic ∧
    sourcePage.service.renderNode sourcePage.direct.argument =
      .ok { code := "location", identifiers := ⟨[("location", 5)]⟩ } ∧
    .rdWinLoc ∈ ((Engine.ofConfig {}).fingerprints.tagSlice
      { code := "location", identifiers := ["location"], node := some 5 } []).types ∧
    ∃ flow rest, ((Engine.ofConfig {}).analyse sourcePage.service {}).1.flows = flow :: rest ∧
      flow.node = 3 ∧ .rdWinLoc ∉ flow.types.types := by
  have hrender : sourcePage.service.renderNode sourcePage.direct.argument =
      .ok { code := "location", identifiers := ⟨[("location", 5)]⟩ } := by decide +kernel
  have hne : SemanticType.rdWinLoc ≠ .nonReach := nofun
  refine ⟨sourcePage.closed, Store.astAcyclic_of_lt (by decide +kernel), hrender, ?_, ?_⟩
  · refine (Fingerprints.mem_tagSlice hne).mpr (.inr ⟨"location", List.mem_singleton_self _, ?_⟩)
    refine List.mem_append_left _ (List.mem_map.mpr ⟨⟨.rdWinLoc, .name "location"⟩, ?_, rfl⟩)
    exact List.mem_filter.mpr ⟨by decide, by decide⟩
  · have hflows := Engine.forall₂_types (Engine.ofConfig {}) {} sourcePage.sinks
    generalize ((Engine.ofConfig {}).analyse sourcePage.service {}).1.flows = flows at hflows
    obtain _ | ⟨⟨-, hnode, htypes⟩, -⟩ := hflows
    rw [hrender] at htypes
    exact ⟨_, _, rfl, hnode, fun hm => sourcePage.not_explains _ _ _ ((htypes _ hne).mp hm)⟩

end RequestFlow

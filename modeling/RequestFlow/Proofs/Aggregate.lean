/-
A flow and its parts. The slices of a flow are listed once for each name of the
argument that is traced, under a key of its own, and its types are that of the
sink with those of the argument and of the lists. Both hold of partial flows as
well: what could not be traced to its end is listed as far as it was.
-/
import RequestFlow.Proofs.Syntax.Occurrences
import RequestFlow.Proofs.Tagging

namespace RequestFlow

theorem SinkFamily.semanticType_ne_nonReach (family : SinkFamily) :
    family.semanticType ≠ .nonReach := by
  cases family <;> decide

/-! ## Tables -/

namespace VariableSlices

theorem map_index_ofSlices (types : TypeSet) (slices : List Slice) :
    (ofSlices types slices).slices.map (·.index) =
      List.range (ofSlices types slices).slices.length := by
  refine List.ext_getElem ?_ fun i hi _ => ?_
  · simp
  · simp [ofSlices]

theorem map_line_ofSlices (types : TypeSet) (slices : List Slice) :
    (ofSlices types slices).slices.map (fun line => (line.location, line.code)) =
      slices.map fun slice => (slice.location, slice.code) := by
  refine List.ext_getElem ?_ fun i hi _ => ?_
  · simp [ofSlices]
  · simp [ofSlices]

end VariableSlices

namespace SliceTable

variable {name : String} {slices : VariableSlices} {entries : List (String × VariableSlices)}

/-- A new name adds an entry. -/
theorem place_perm (h : ∀ entry ∈ entries, entry.1 ≠ name) :
    (place name slices entries).Perm ((name, slices) :: entries) := by
  induction entries with
  | nil => exact .refl _
  | cons entry entries ih =>
    obtain ⟨hentry, hrest⟩ := List.forall_mem_cons.mp h
    rw [place, if_neg hentry.symm]
    split
    · exact .refl _
    · exact ((ih hrest).cons entry).trans (.swap ..)

/-- Entries of different names are all kept. -/
theorem foldl_insert_perm {table : SliceTable}
    (h : ((table.entries ++ entries).map (·.1)).Nodup) :
    (entries.foldl (fun table entry => table.insert entry.1 entry.2) table).entries.Perm
      (table.entries ++ entries) := by
  induction entries generalizing table with
  | nil => simp
  | cons entry entries ih =>
    have hnew : ∀ e ∈ table.entries, e.1 ≠ entry.1 := by
      intro e he heq
      rw [List.map_append, List.nodup_append] at h
      exact h.2.2 _ (List.mem_map_of_mem he) _ (List.mem_map_of_mem List.mem_cons_self) heq
    have hinsert : (table.insert entry.1 entry.2).entries.Perm (entry :: table.entries) :=
      place_perm hnew
    have hperm : ((table.insert entry.1 entry.2).entries ++ entries).Perm
        (table.entries ++ entry :: entries) :=
      (hinsert.append_right entries).trans List.perm_middle.symm
    exact (ih ((hperm.map _).nodup_iff.mpr h)).trans hperm

end SliceTable

namespace Run

variable (run : Run)

/-- The key under which the slices of a name are listed, if it is traced. -/
def key? (name : String) : Option String :=
  if name = thisIdentifier then some thisVariable
  else if run.setting.builtins.contains name then none
  else some name

theorem target?_map_snd (name : String) (origin : NodeId) :
    (run.target? name origin).map (·.2) = run.key? name := by
  unfold target? key?
  split
  · rfl
  · split <;> rfl

/-- No two names have one key, unless one of them is that of `this`. -/
theorem eq_of_key? {name other key : String} (hn : name ≠ thisVariable) (ho : other ≠ thisVariable)
    (h : run.key? name = some key) (h' : run.key? other = some key) : name = other := by
  unfold key? at h h'
  grind

/-- What is listed for an answer. -/
def listed (answer : Answer) : String × VariableSlices :=
  (answer.key, .ofSlices
    (run.fingerprints.tagSlices answer.tracer.slices.slices run.documentVariables)
    answer.tracer.slices.slices)

theorem slices_foldl_record (answers : List Answer) (f : FlowTrace) :
    (answers.foldl run.record f).slices =
      (answers.map run.listed).foldl (fun table entry => table.insert entry.1 entry.2) f.slices := by
  induction answers generalizing f with
  | nil => rfl
  | cons answer answers ih => exact ih (run.record f answer)

theorem foldl_record_absorbs (answers : List Answer) {f : FlowTrace} (h : f.types.Absorbs) :
    (answers.foldl run.record f).types.Absorbs := by
  induction answers generalizing f with
  | nil => exact h
  | cons answer answers ih => exact ih (f := run.record f answer) h.union

/-! ## Flows -/

/-- An entry lists the slices that an answer has found, numbered from zero, with the types of all of
them. -/
structure Lists (answer : Answer) (slices : VariableSlices) : Prop where
  numbers : slices.slices.map (·.index) = List.range slices.slices.length
  lines : slices.slices.map (fun line => (line.location, line.code)) =
    answer.tracer.slices.slices.map fun slice => (slice.location, slice.code)
  types : slices.types =
    run.fingerprints.tagSlices answer.tracer.slices.slices run.documentVariables

/-- A flow is put together from the type of its sink, the argument and what is found for the names in
it in the time that is left. -/
structure Aggregates (g : Service) (time : Deadline) (sink : Sink) (argument : Rendered)
    (statement : NodeId) (flow : Flow) : Prop where
  /-- There is one entry for each name that is traced. -/
  keys : (flow.slices.entries.map (·.1)).Perm (argument.identifiers.names.filterMap run.key?)
  entries : ∀ entry ∈ flow.slices.entries,
    ∃ answer ∈ run.answers g statement time argument.identifiers.entries,
      answer.key = entry.1 ∧ run.Lists answer entry.2
  types : ∀ type, type ∈ flow.types.types ↔ type = sink.family.semanticType ∨
    type ≠ .nonReach ∧ (type ∈ (run.fingerprints.tagCode argument.code).types ∨
      ∃ entry ∈ flow.slices.entries, type ∈ entry.2.types.types)
  nonReach : .nonReach ∉ flow.types.types

variable {run}

theorem lists_listed (answer : Answer) : run.Lists answer (run.listed answer).2 :=
  ⟨VariableSlices.map_index_ofSlices _ _, VariableSlices.map_line_ofSlices _ _, rfl⟩

/-- The names of an argument are different. -/
theorem Parts.nodup_names (g : Service) (sink : Sink) :
    ((Parts.of g sink).names.map (·.1)).Nodup := by
  unfold names
  cases h : (Parts.of g sink).argument with
  | error fault => exact .nil
  | ok rendered =>
    have hidentifiers := Service.identifiers_renderNode h
    change rendered.identifiers.names.Nodup
    rw [hidentifiers]
    exact IdentifierMap.nodup_names_ofList _

/-- Every name that is traced has its answer. -/
theorem map_key_answers (g : Service) (statement : NodeId) (time : Deadline)
    (names : List (String × NodeId)) :
    (run.answers g statement time names).map (·.key) = (names.map (·.1)).filterMap run.key? := by
  induction names generalizing time with
  | nil => rfl
  | cons entry rest ih =>
    rw [answers, List.map_cons, List.filterMap_cons, ← run.target?_map_snd entry.1 entry.2]
    cases run.target? entry.1 entry.2 with
    | none => exact ih time
    | some asked => exact congrArg (asked.2 :: ·) (ih _)

theorem nodup_keys {names : List String} (hn : names.Nodup)
    (ht : ∀ name ∈ names, name ≠ thisVariable) : (names.filterMap run.key?).Nodup := by
  refine List.pairwise_filterMap.mpr (List.Pairwise.imp_of_mem ?_ hn)
  rintro name other hm hm' hne key hk _ hk' rfl
  exact hne (run.eq_of_key? (ht name hm) (ht other hm') hk hk')

section Store

variable {keep : Bool} {store : Store} {t : Tracer} {sink : Sink}

variable (hthis : ∀ node ∈ store.nodes, node.type = .identifier → node.code ≠ thisVariable)
  (hk : Kept keep store.service t) (hs : sink.Held store.service)
include hthis hk hs

/-- All that was traced is listed, as no identifier has the key of `this`. -/
theorem flow_slices_perm : ((run.keeping keep).flow t sink).1.slices.entries.Perm
    (((run.keeping keep).answersAt store.service t.deadline sink).map
      (run.keeping keep).listed) := by
  have hname : ∀ name ∈ (Parts.of store.service sink).names.map (·.1), name ≠ thisVariable := by
    intro name hm
    obtain ⟨entry, hentry, rfl⟩ := List.mem_map.mp hm
    -- The name is the code of an identifier, or stands for an occurrence of `this`.
    obtain ⟨node, hn, ⟨hi, hcode⟩ | ⟨-, hname⟩⟩ := Parts.mentions (.self _) hs entry hentry
    · exact hcode ▸ hthis node (Store.node?_eq_some.mp hn).1 hi
    · rw [hname]
      decide
  have hslices : ((run.keeping keep).flow t sink).1.slices = _ := (flow_fresh run hk hs).2.slices
  rw [hslices, found, slices_foldl_record]
  refine SliceTable.foldl_insert_perm ?_
  change ((((run.keeping keep).answersAt store.service t.deadline sink).map _).map _).Nodup
  rw [List.map_map]
  exact map_key_answers .. ▸ nodup_keys (Parts.nodup_names _ sink) hname

/-- A type other than `NON_REACH` comes from the sink, from the argument or from a list. -/
theorem mem_flow_types_iff_listed {type : SemanticType} (ht : type ≠ .nonReach) :
    type ∈ ((run.keeping keep).flow t sink).1.types.types ↔
      type = sink.family.semanticType ∨
        (type ∈ ((run.keeping keep).fingerprints.tagCode
          ((store.service.renderNode sink.argument).toOption.getD {}).code).types ∨
        ∃ entry ∈ ((run.keeping keep).flow t sink).1.slices.entries,
          type ∈ entry.2.types.types) := by
  have htypes : ((run.keeping keep).flow t sink).1.types = _ := (flow_fresh run hk hs).2.types
  rw [htypes, found, mem_foldl_record _ ht, ← or_assoc]
  refine or_congr (TypeSet.mem_insert_of_ne ht) ?_
  simp only [(flow_slices_perm hthis hk hs).mem_iff, List.mem_map, exists_exists_and_eq_and]
  refine exists_congr fun answer => and_congr_right fun _ => ?_
  exact (Fingerprints.mem_tagSlices ht).symm

variable (run) in
theorem flow_aggregates : (run.keeping keep).Aggregates store.service t.deadline sink
    ((store.service.renderNode sink.argument).toOption.getD {})
    ((store.service.statement sink.node.id).toOption.getD sink.node).id
    ((run.keeping keep).flow t sink).1 := by
  have hperm : ((run.keeping keep).flow t sink).1.slices.entries.Perm _ :=
    flow_slices_perm hthis hk hs
  have hsink := sink.family.semanticType_ne_nonReach
  have habsorbs : ((run.keeping keep).flow t sink).1.types.Absorbs := by
    have htypes : ((run.keeping keep).flow t sink).1.types = _ := (flow_fresh run hk hs).2.types
    rw [htypes]
    exact (run.keeping keep).foldl_record_absorbs _ (TypeSet.insert_absorbs _ _)
  -- The type of the sink is always there, so `NON_REACH` is not.
  have hnone : .nonReach ∉ ((run.keeping keep).flow t sink).1.types.types := fun hn =>
    hsink (habsorbs hn _ ((mem_flow_types_iff_listed hthis hk hs hsink).mpr (.inl rfl)))
  refine ⟨?_, ?_, fun type => ?_, hnone⟩
  · have hkeys := hperm.map (·.1)
    rw [List.map_map] at hkeys
    exact hkeys.trans (.of_eq (map_key_answers ..))
  · intro entry he
    obtain ⟨answer, ha, rfl⟩ := List.mem_map.mp (hperm.mem_iff.mp he)
    exact ⟨answer, ha, rfl, lists_listed answer⟩
  · by_cases ht : type = .nonReach
    · subst ht
      exact iff_of_false hnone (by simp [hsink.symm])
    · rw [mem_flow_types_iff_listed hthis hk hs ht, and_iff_right ht]

end Store

end Run

/-- **A flow is exactly its parts.** On a graph without an identifier `this`, each flow of an
analysis has one list of slices for every name of its argument that is traced, with what is found for
it in the time that is left, and no types but those of the sink, of the argument and of the lists. An
argument that cannot be rendered counts as empty. -/
theorem Engine.analyse_aggregates {store : Store}
    (hthis : ∀ node ∈ store.nodes, node.type = .identifier → node.code ≠ thisVariable)
    (engine : Engine) (page : Page) :
    List.Forall₂ (fun timed flow => (engine.run page).Aggregates store.service timed.1 timed.2
        ((store.service.renderNode timed.2.argument).toOption.getD {})
        ((store.service.statement timed.2.node.id).toOption.getD timed.2.node).id flow)
      ((engine.run page).timed store.service (engine.traceOptions page).deadline
        ((store.service.sinks (engine.scope page)).toOption.getD []))
      (engine.analyse store.service page).1.flows := by
  unfold analyse
  cases hsinks : store.service.sinks (engine.scope page) with
  | error fault => exact .nil
  | ok sinks =>
    obtain ⟨-, hheld⟩ := (Service.sinks_agree (.self _) _).of_ok hsinks
    refine Run.forall₂_flows (engine.run page)
      (P := fun time sink flow => (engine.run page).Aggregates store.service time sink
        ((store.service.renderNode sink.argument).toOption.getD {})
        ((store.service.statement sink.node.id).toOption.getD sink.node).id flow)
      ?_ (.tracer _ _ (engine.run page)) hheld
    intro t sink hk hs
    exact Run.flow_aggregates (engine.run page) hthis hk hs

/-- The page `var a = location; fetch(a + this + location)`. -/
def partsPage : Store :=
  .ofLists
    [{ id := 1, type := .program },
     { id := 2, type := .variableDeclaration, kind := "var" },
     { id := 3, type := .variableDeclarator }, { id := 4, type := .identifier, code := "a" },
     { id := 5, type := .identifier, code := "location" },
     { id := 6, type := .expressionStatement }, { id := 7, type := .callExpression },
     { id := 8, type := .identifier, code := "fetch" },
     { id := 9, type := .binaryExpression, code := "+" },
     { id := 10, type := .binaryExpression, code := "+" },
     { id := 11, type := .identifier, code := "a" }, { id := 12, type := .thisExpression },
     { id := 13, type := .identifier, code := "location" }]
    [{ source := 1, target := 2, relation := .ast, relationType := "body" },
     { source := 2, target := 3, relation := .ast, relationType := "declarations" },
     { source := 3, target := 4, relation := .ast, relationType := "id" },
     { source := 3, target := 5, relation := .ast, relationType := "init" },
     { source := 1, target := 6, relation := .ast, relationType := "body" },
     { source := 6, target := 7, relation := .ast, relationType := "expression" },
     { source := 7, target := 8, relation := .ast, relationType := "callee" },
     { source := 7, target := 9, relation := .ast, relationType := "arguments" },
     { source := 9, target := 10, relation := .ast, relationType := "left" },
     { source := 10, target := 11, relation := .ast, relationType := "left" },
     { source := 10, target := 12, relation := .ast, relationType := "right" },
     { source := 9, target := 13, relation := .ast, relationType := "right" },
     { source := 2, target := 6, relation := .pdg, arguments := "a" }]

/-- A name that is traced, `this` and a name that is taken for granted in one argument. The deadline
passes after the first has been traced, before it is known what flows in as `this`. -/
theorem Engine.analyse_aggregates_partsPage :
    let sink : Sink := ⟨.fetch, { id := 7, type := .callExpression },
      { id := 9, type := .binaryExpression, code := "+" }⟩
    let page : Page := { deadline := ⟨some 1⟩ }
    (∀ node ∈ partsPage.nodes, node.type = .identifier → node.code ≠ thisVariable) ∧
    partsPage.service.sinks (sourcePage.engine.scope page) = .ok [sink] ∧
    (sourcePage.engine.analyse partsPage.service page).1.flows.map
        (fun flow => (flow.isPartial, flow.types.types,
          flow.slices.entries.map fun entry => (entry.1, entry.2.slices.map (·.code)))) =
      [(true, [.rdWinLoc, .wrReqUrl],
        [("a", ["var a = location"]), ("this", ["this --(points-to)--> window"])])] ∧
    List.Forall₂ (fun timed flow => (sourcePage.engine.run page).Aggregates partsPage.service timed.1
        timed.2 ((partsPage.service.renderNode timed.2.argument).toOption.getD {})
        ((partsPage.service.statement timed.2.node.id).toOption.getD timed.2.node).id flow)
      [(⟨some 1⟩, sink)] (sourcePage.engine.analyse partsPage.service page).1.flows := by
  intro sink page
  have hthis : ∀ node ∈ partsPage.nodes, node.type = .identifier → node.code ≠ thisVariable := by
    decide +kernel
  have hsinks : partsPage.service.sinks (sourcePage.engine.scope page) = .ok [sink] := by
    decide +kernel
  have hflows := Engine.analyse_aggregates hthis sourcePage.engine page
  rw [hsinks] at hflows
  exact ⟨hthis, hsinks, by decide +kernel, hflows⟩

end RequestFlow

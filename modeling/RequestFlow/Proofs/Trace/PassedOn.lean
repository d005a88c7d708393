/-
Recursive calls that pass a parameter on. A trace of a parameter does not go on
at a call inside the function whose argument is the parameter itself, by its
name. `queryAll` is the query without that exception.

The exception is not harmless. It compares names and not values: where the
function assigns to the parameter before the call, the value that the call
passes on is that of the assignment, and the query never comes to it. Nothing is
lost exactly where all that flows into such calls under the name of the parameter
is processed for that name anyway.
-/
import RequestFlow.Proofs.Trace.Depth
import RequestFlow.Proofs.Trace.Steps

namespace RequestFlow

namespace Trace

/-- Traces a request with so many levels left, following every call site whatever it passes. -/
def followAll (setting : Setting) : (levels : Nat) → Request → Trace Unit :=
  followBy setting fun descend r _ =>
    bindingStep setting descend (fun _ => pure false) r.name r.depth

end Trace

/-- The query that follows every call site, also those that pass a parameter on. -/
def Tracer.queryAll (setting : Trace.Setting) (t : Tracer) (target : Tracer.Target)
    (context : NodeId) (slices : SliceSet := {}) : Except GraphFault Unit × Tracer :=
  (Trace.answering setting (Trace.followAll setting) target context).run.run
    (t.started setting.options.deadline slices)

/-! ## What the calls lead to -/

namespace Service

variable (g : Service) (builtins : Builtins)

/-- What a call site that passes the parameter on would lead to. -/
inductive PassedLead (name : String) (function : Node) (site : CallSite) : Lead → Prop
  | argument {argument statement lead} (ha : site.get? name = some argument)
    (hp : g.PassesOn name function site argument) (hs : g.statement site.call = .ok statement)
    (hl : ArgumentLead builtins argument statement lead) : PassedLead name function site lead

/-- One producer, with all its call sites. -/
def ProducerLeadAll (name : String) (producer : Node) (lead : Lead) : Prop :=
  g.ProducerLead builtins name producer lead ∨
    ∃ function site, g.Binds name producer function site ∧ g.PassedLead builtins name function site lead

/-- The trace of `pair` comes to a call that leads to `next` and is not followed. -/
def Skips (pair next : String × NodeId) : Prop :=
  ∃ producer function site, g.Produces pair.1 pair.2 producer ∧
    g.Binds pair.1 producer function site ∧
    g.PassedLead builtins pair.1 function site (.pair next.1 next.2)

variable {g builtins} {start pair : String × NodeId}

theorem ReachesOver.all (h : g.ReachesOver (g.ProducerLead builtins) start pair) :
    g.ReachesOver (g.ProducerLeadAll builtins) start pair := by
  induction h with
  | refl => exact .refl
  | tail _ hnext ih =>
    obtain ⟨producer, hp, hl⟩ := hnext
    exact ih.tail ⟨producer, hp, .inl hl⟩

/-- The producer flows under that name into a statement at which the trace comes to the name. -/
def Attains (g : Service) (builtins : Builtins) (start : String × NodeId) (name : String)
    (producer : Node) : Prop :=
  ∃ context, g.ReachesOver (g.ProducerLead builtins) start (name, context) ∧
    g.Produces name context producer

/-- If what flows into the calls that are not followed is attained anyway, then following them attains
nothing more. What a producer leads to depends on the name only, not on the statement it flows to. -/
theorem attains_of_reachesOver
    (hskip : ∀ pair, g.ReachesOver (g.ProducerLead builtins) start pair →
      ∀ next, g.Skips builtins pair next → ∀ producer, g.Produces next.1 next.2 producer →
        g.Attains builtins start next.1 producer)
    (h : g.ReachesOver (g.ProducerLeadAll builtins) start pair) {producer : Node}
    (hp : g.Produces pair.1 pair.2 producer) : g.Attains builtins start pair.1 producer := by
  induction h generalizing producer with
  | refl => exact ⟨start.2, .refl, hp⟩
  | @tail pair next _ hnext ih =>
    obtain ⟨earlier, hearlier, hlead⟩ := hnext
    obtain ⟨context, hreach, hprod⟩ := ih hearlier
    rcases hlead with hlead | ⟨function, site, hbinds, hlead⟩
    · exact ⟨next.2, hreach.tail ⟨earlier, hprod, hlead⟩, hp⟩
    · exact hskip _ hreach next ⟨earlier, function, site, hprod, hbinds, hlead⟩ producer hp

end Service

/-! ## Following every call site -/

namespace Trace

variable {g : Service} {setting : Setting} {start : String × NodeId}

/-- A call site that is followed in any case leads to what it leads to in either case. -/
theorem bindingLead_true_iff {name : String} {function : Node} {site : CallSite} {lead : Lead} :
    g.BindingLead setting.builtins (fun _ => True) name site lead ↔
      g.SiteLead setting.builtins name function site lead ∨
        g.PassedLead setting.builtins name function site lead := by
  constructor
  · rintro (ha | @⟨argument, _, _, ha, -, hs, hl⟩)
    · exact .inl (.shown ha)
    · by_cases hon : g.PassesOn name function site argument
      · exact .inr (.argument ha hon hs hl)
      · exact .inl (.argument ha hon hs hl)
  · rintro ((ha | ⟨ha, -, hs, hl⟩) | ⟨ha, -, hs, hl⟩)
    · exact .shown ha
    · exact .argument ha trivial hs hl
    · exact .argument ha trivial hs hl

theorem followAll_walks (hp : g.Plain) (levels : Nat) :
    DescendsOver g setting (g.ProducerLeadAll setting.builtins) start (followAll setting levels) := by
  refine followBy_walks hp (g.PassedLead setting.builtins) (fun _ _ _ => Iff.rfl)
    (fun hd r hr function site hs hl => ?_) levels
  refine (bindingStep_walks hp hd hr hs (fun _ _ => ⟨false, .pure, by simp⟩) fun lead h => ?_).imp
    fun lead h => bindingLead_true_iff.mpr h
  exact hl lead (bindingLead_true_iff.mp h)

theorem FindsOver.upTo {own : String → Node → Lead → Prop} {slices : SliceSet} {t : Tracer}
    {depth : Nat} (h : FindsOver g (setting.upTo depth) own start slices t) :
    FindsOver g setting own start slices t := ⟨h.visited, h.kept, h.shown, h.met⟩

end Trace

namespace Tracer

/-- The producer flows under that name into a statement for which the name has been expanded. -/
def Processes (g : Service) (t : Tracer) (name : String) (producer : Node) : Prop :=
  ∃ context, (name, context) ∈ t.visited ∧ g.Produces name context producer

/-- Every slice of `t` is in `t'`, or one that shows the same text at the same location, perhaps in
another scope. -/
def ShownIn (options : TraceOptions) (t t' : Tracer) : Prop :=
  ∀ slice ∈ t.slices.slices, slice ∈ t'.slices.slices ∨
    ∃ slice' ∈ t'.slices.slices, slice'.location = slice.location ∧
      ∃ text, slice.Shows options text ∧ slice'.Shows options text

end Tracer

/-- What one query may show the other has met, so it shows it too. -/
theorem Trace.FindsOver.shownIn {g : Service} {setting : Setting}
    {own own' : String → Node → Lead → Prop} {start : String × NodeId} {slices : SliceSet}
    {t t' : Tracer} (h : FindsOver g setting own start slices t)
    (h' : FindsOver g setting own' start slices t')
    (hmet : ∀ pair text location, g.ReachesOver own start pair →
      g.LeadsOver own pair (.text text location) →
      (Lead.text text location).Met setting.options t') :
    t.ShownIn setting.options t' := by
  intro slice hm
  rcases h.shown slice hm with hm | ⟨pair, text, hr, hl, hshows⟩
  · exact .inl (h'.kept hm)
  · obtain ⟨slice', hm', hshows', hloc⟩ := hmet pair text slice.location hr hl
    exact .inr ⟨slice', hm', hloc, text, hshows, hshows'⟩

/-- **What recursive calls pass on is lost, unless it is met elsewhere.** On a page without `this`, take
a query for a name and the same query following every call site, at any depth at which neither is cut
short. Both answer, and all that the first shows the second shows. The second processes no further
producer for any name exactly if whatever flows into the calls that the first skips is processed by
the first for the same name; then both show the same texts at the same locations. -/
theorem Tracer.query_passed_on {store : Store} (hc : store.Closed) (hw : store.WithoutThis)
    {setting : Trace.Setting} {t t' all : Tracer} (ht : t.Honest store.service) {name : String}
    {context : NodeId} (hn : store.hasNode context = true) {slices : SliceSet}
    {outcome outcomeAll : Except GraphFault Unit} {depth : Nat}
    (h : t.query setting (.name name) context slices = (outcome, t')) (hend : t'.truncation = none)
    (hall : t.queryAll (setting.upTo depth) (.name name) context slices = (outcomeAll, all))
    (hendAll : all.truncation = none) :
    outcome = .ok () ∧ outcomeAll = .ok () ∧ t'.ShownIn setting.options all ∧
    ((∀ name producer, all.Processes store.service name producer →
        t'.Processes store.service name producer) ↔
      ∀ pair ∈ t'.visited, ∀ next, store.service.Skips setting.builtins pair next →
        ∀ producer, store.service.Produces next.1 next.2 producer →
          t'.Processes store.service next.1 producer) ∧
    ((∀ name producer, all.Processes store.service name producer →
        t'.Processes store.service name producer) → all.ShownIn setting.options t') := by
  have hp : store.service.Plain := Store.plain_service hc hw
  obtain ⟨_, hrun, hfound⟩ := Trace.answering_finds hp hn
    (fun levels => Trace.follow_walks hp levels) ht setting.options.deadline slices
  cases h.symm.trans hrun
  obtain ⟨_, hrunAll, hfoundAll⟩ := Trace.answering_finds hp hn
    (fun levels => Trace.followAll_walks hp levels) ht setting.options.deadline slices
  cases hall.symm.trans hrunAll
  have hf := hfound hend
  have hfAll := (hfoundAll hendAll).upTo
  have hattains : ∀ name' producer, t'.Processes store.service name' producer ↔
      store.service.Attains setting.builtins (name, context) name' producer :=
    fun _ _ => exists_congr fun _ => and_congr_left' (hf.visited _)
  refine ⟨rfl, rfl, ?_, ⟨fun hcover pair hm next hskip producer hprod => ?_, fun hskip => ?_⟩,
    fun hcover => ?_⟩
  · refine hf.shownIn hfAll fun pair text location hr ⟨producer, hprod, hl⟩ => ?_
    exact hfAll.met pair _ hr.all ⟨producer, hprod, .inl hl⟩
  · obtain ⟨earlier, function, site, hearlier, hbinds, hlead⟩ := hskip
    have hreach := ((hf.visited pair).mp hm).all.tail ⟨earlier, hearlier, .inr ⟨function, site, hbinds,
      hlead⟩⟩
    exact hcover next.1 producer ⟨next.2, (hfAll.visited next).mpr hreach, hprod⟩
  · rintro name' producer ⟨context', hm, hprod⟩
    refine (hattains name' producer).mpr (Service.attains_of_reachesOver (fun pair hr next hs => ?_)
      ((hfAll.visited _).mp hm) hprod)
    exact fun other hother =>
      (hattains next.1 other).mp (hskip pair ((hf.visited pair).mpr hr) next hs other hother)
  · refine hfAll.shownIn hf fun pair text location hr ⟨producer, hprod, hl⟩ => ?_
    obtain ⟨context', hm, hprod'⟩ :=
      hcover pair.1 producer ⟨pair.2, (hfAll.visited pair).mpr hr, hprod⟩
    rcases hl with hl | ⟨function, site, -, ⟨-, -, -, hl⟩⟩
    · exact hf.met _ _ ((hf.visited _).mp hm) ⟨producer, hprod', hl⟩
    · cases hl

/-- A page with the statements `function poll(u) { fetch(u); u = location.hash; poll(u) } poll("/a")`,
or with an assignment to `v` in place of that to `u`. -/
def pollPage (assigned : Bool) : Store :=
  .ofLists
    [{ id := 1, type := .program },
     { id := 2, type := .functionDeclaration, location := "line:1" },
     { id := 3, type := .identifier, code := "poll" },
     { id := 4, type := .identifier, code := "u" },
     { id := 5, type := .blockStatement },
     { id := 6, type := .expressionStatement, location := "line:2" },
     { id := 7, type := .callExpression }, { id := 8, type := .identifier, code := "fetch" },
     { id := 9, type := .identifier, code := "u" },
     { id := 10, type := .expressionStatement, location := "line:3" },
     { id := 11, type := .assignmentExpression, code := "=" },
     { id := 12, type := .identifier, code := if assigned then "u" else "v" },
     { id := 13, type := .memberExpression },
     { id := 14, type := .identifier, code := "location" },
     { id := 15, type := .identifier, code := "hash" },
     { id := 16, type := .expressionStatement, location := "line:4" },
     { id := 17, type := .callExpression, location := "line:4" },
     { id := 18, type := .identifier, code := "poll" },
     { id := 19, type := .identifier, code := "u" },
     { id := 20, type := .expressionStatement, location := "line:5" },
     { id := 21, type := .callExpression, location := "line:5" },
     { id := 22, type := .identifier, code := "poll" },
     { id := 23, type := .literal, value := "/a" }]
    [{ source := 1, target := 2, relation := .ast, relationType := "body" },
     { source := 2, target := 3, relation := .ast, relationType := "id" },
     { source := 2, target := 4, relation := .ast, relationType := "params" },
     { source := 2, target := 5, relation := .ast, relationType := "body" },
     { source := 5, target := 6, relation := .ast, relationType := "body" },
     { source := 6, target := 7, relation := .ast, relationType := "expression" },
     { source := 7, target := 8, relation := .ast, relationType := "callee" },
     { source := 7, target := 9, relation := .ast, relationType := "arguments" },
     { source := 5, target := 10, relation := .ast, relationType := "body" },
     { source := 10, target := 11, relation := .ast, relationType := "expression" },
     { source := 11, target := 12, relation := .ast, relationType := "left" },
     { source := 11, target := 13, relation := .ast, relationType := "right" },
     { source := 13, target := 14, relation := .ast, relationType := "object" },
     { source := 13, target := 15, relation := .ast, relationType := "property" },
     { source := 5, target := 16, relation := .ast, relationType := "body" },
     { source := 16, target := 17, relation := .ast, relationType := "expression" },
     { source := 17, target := 18, relation := .ast, relationType := "callee" },
     { source := 17, target := 19, relation := .ast, relationType := "arguments" },
     { source := 1, target := 20, relation := .ast, relationType := "body" },
     { source := 20, target := 21, relation := .ast, relationType := "expression" },
     { source := 21, target := 22, relation := .ast, relationType := "callee" },
     { source := 21, target := 23, relation := .ast, relationType := "arguments" },
     { source := 17, target := 2, relation := .cg },
     { source := 21, target := 2, relation := .cg },
     { source := 2, target := 6, relation := .pdg, arguments := "u" },
     { source := if assigned then 10 else 2, target := 16, relation := .pdg, arguments := "u" }]

namespace pollPage

/-- Tracing without layout, where only `location` is taken for given. -/
def setting : Trace.Setting := ⟨⟨["location"]⟩, { layout := false }⟩

/-- The query for `u` at `fetch(u)`. -/
def asked (assigned : Bool) : Except GraphFault Unit × Tracer :=
  (Tracer.new (pollPage assigned).service).query setting (.name "u") 6

/-- The same query, following every call site. -/
def askedAll (assigned : Bool) : Except GraphFault Unit × Tracer :=
  (Tracer.new (pollPage assigned).service).queryAll (setting.upTo 100) (.name "u") 6

end pollPage

/-- Where `poll` assigns to `v`, the call passes its parameter on, whose producer is processed at
`fetch(u)`: following the call shows nothing new. -/
theorem Tracer.query_passed_on_unassigned :
    (pollPage false).Closed ∧ (pollPage false).WithoutThis ∧
    (pollPage.asked false).2.truncation = none ∧ (pollPage.askedAll false).2.truncation = none ∧
    (pollPage.askedAll false).2.visited = [("u", 16), ("u", 6)] ∧
    (pollPage.askedAll false).2.ShownIn pollPage.setting.options (pollPage.asked false).2 := by
  have hpage : (pollPage false).Closed ∧ (pollPage false).WithoutThis ∧
      (pollPage false).hasNode 6 = true := by decide +kernel
  have hrun : (pollPage.asked false).2.truncation = none ∧
      (pollPage.asked false).2.visited = [("u", 6)] := by decide +kernel
  have hrunAll : (pollPage.askedAll false).2.truncation = none ∧
      (pollPage.askedAll false).2.visited = [("u", 16), ("u", 6)] := by decide +kernel
  have hproducers : (pollPage false).service.producers "u" 16 false =
        .ok [{ id := 2, type := .functionDeclaration, location := "line:1" }] ∧
      (pollPage false).service.producers "u" 6 false =
        .ok [{ id := 2, type := .functionDeclaration, location := "line:1" }] := by decide +kernel
  generalize hq : pollPage.asked false = q at hrun ⊢
  generalize hqAll : pollPage.askedAll false = qAll at hrunAll ⊢
  obtain ⟨outcome, t⟩ := q
  obtain ⟨outcomeAll, all⟩ := qAll
  dsimp only at hrun hrunAll
  obtain ⟨-, -, -, -, hshown⟩ := query_passed_on hpage.1 hpage.2.1 (honest_new _) hpage.2.2 hq
    hrun.1 hqAll hrunAll.1
  refine ⟨hpage.1, hpage.2.1, hrun.1, hrunAll.1, hrunAll.2, hshown ?_⟩
  -- The same function flows into both statements.
  rintro name producer ⟨context, hm, hprod⟩
  rw [hrunAll.2, List.mem_pair] at hm
  obtain ⟨rfl, rfl⟩ | ⟨rfl, rfl⟩ := hm.imp Prod.mk.inj Prod.mk.inj
  · have hlisted := (Service.mem_producers hproducers.1).mpr ⟨hprod, nofun⟩
    exact ⟨6, by simp [hrun.2], ((Service.mem_producers hproducers.2).mp hlisted).1⟩
  · exact ⟨6, by simp [hrun.2], hprod⟩

/-- Where `poll` assigns to `u`, the value that it passes on is that of the assignment. The query never
comes to it. -/
theorem Tracer.query_passed_on_assigned :
    (pollPage true).Closed ∧ (pollPage true).WithoutThis ∧
    (pollPage.asked true).2.truncation = none ∧ (pollPage.askedAll true).2.truncation = none ∧
    ¬ (pollPage.askedAll true).2.ShownIn pollPage.setting.options (pollPage.asked true).2 := by
  have hpage : (pollPage true).Closed ∧ (pollPage true).WithoutThis := by decide +kernel
  have hrun : (pollPage.asked true).2.truncation = none ∧
      ∀ slice ∈ (pollPage.asked true).2.slices.slices, slice.location ≠ "line:3" := by
    decide +kernel
  have hrunAll : (pollPage.askedAll true).2.truncation = none ∧
      ∃ slice ∈ (pollPage.askedAll true).2.slices.slices,
        slice.code = "[scope-id=17] u = location.hash" ∧ slice.location = "line:3" := by
    decide +kernel
  refine ⟨hpage.1, hpage.2, hrun.1, hrunAll.1, fun hshown => ?_⟩
  obtain ⟨slice, hm, -, hloc⟩ := hrunAll.2
  rcases hshown slice hm with hm | ⟨slice', hm', hloc', -⟩
  · exact hrun.2 slice hm hloc
  · exact hrun.2 slice' hm' (hloc'.trans hloc)

end RequestFlow

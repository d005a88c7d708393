/-
What a query makes of the slices that were there before it. They stay where they
are, and new ones come behind them, each at most once, and each of a node of the
graph at its place there. It is so wherever a query stops: at its end, at a
budget, or at a question that fails.
-/
import RequestFlow.Proofs.Trace.Keeps

namespace RequestFlow

namespace SliceSet

/-- The set that pushing slices one after the other makes. -/
def ofList (slices : List Slice) : SliceSet := slices.foldl push {}

/-- No two slices share both code and location. -/
def Distinct (set : SliceSet) : Prop :=
  set.slices.Pairwise fun s s' => s.code ≠ s'.code ∨ s.location ≠ s'.location

theorem contains_iff {set : SliceSet} {slice : Slice} : set.contains slice = true ↔
    ∃ s ∈ set.slices, s.code = slice.code ∧ s.location = slice.location := by
  simp [contains]

theorem Distinct.push {set : SliceSet} (h : set.Distinct) (slice : Slice) :
    (set.push slice).Distinct := by
  unfold SliceSet.push
  split
  · exact h
  next hnew =>
  rw [contains_iff] at hnew
  refine List.pairwise_append.mpr ⟨h, List.pairwise_singleton _ _, fun s hs s' hs' => ?_⟩
  rw [List.mem_singleton.mp hs']
  by_contra hsame
  rw [not_or, not_not, not_not] at hsame
  exact hnew ⟨s, hs, hsame⟩

theorem distinct_ofList (slices : List Slice) : (ofList slices).Distinct := by
  have hpush : ∀ set : SliceSet, set.Distinct → (slices.foldl SliceSet.push set).Distinct := by
    induction slices with
    | nil => exact fun set h => h
    | cons slice rest ih => exact fun set h => ih _ (h.push slice)
  exact hpush {} List.Pairwise.nil

/-- The slices of `before`, and behind them slices of nodes of the store, no two alike. -/
structure Follows (store : Store) (before after : SliceSet) : Prop where
  distinct : after.Distinct
  added : ∃ added, after.slices = before.slices ++ added ∧ ∀ slice ∈ added, slice.IsOf store

variable {store : Store} {before after : SliceSet}

theorem Follows.refl (h : before.Distinct) : Follows store before before :=
  ⟨h, [], (List.append_nil _).symm, nofun⟩

theorem Follows.push (h : Follows store before after) {slice : Slice} (hs : slice.IsOf store) :
    Follows store before (after.push slice) := by
  refine ⟨h.distinct.push slice, ?_⟩
  obtain ⟨added, hadded, hall⟩ := h.added
  unfold SliceSet.push
  split
  · exact ⟨added, hadded, hall⟩
  · refine ⟨added ++ [slice], by rw [hadded, List.append_assoc], fun s hm => ?_⟩
    rcases List.mem_append.mp hm with hm | hm
    · exact hall s hm
    · rw [List.mem_singleton.mp hm]
      exact hs

end SliceSet

namespace Trace

variable {g : Service} {before : SliceSet}

/-- Whatever a step does beside showing slices of nodes, the slices follow those from before. -/
theorem steady_slices (g : Service) (before : SliceSet) :
    Steady g fun t => SliceSet.Follows g.store before t.slices :=
  ⟨fun h _ => h, fun h _ => h, fun h _ => h, fun h _ hs => h.push hs⟩

theorem follow_slices (setting : Setting) (levels : Nat) (r : Request) :
    Keeps g (fun t => SliceSet.Follows g.store before t.slices) (fun _ => True)
      (follow setting levels r) := by
  induction levels generalizing r with
  | zero =>
    rintro t _ ⟨rfl, ht, hj⟩
    exact .answer trivial ⟨rfl, ⟨ht.alike, ht.sites, ht.targets⟩, hj⟩
  | succ levels ih =>
    rintro t _ ⟨rfl, ht, hj⟩
    rw [follow_succ, run_expand]
    split
    · exact .answer trivial ⟨rfl, ⟨ht.alike, ht.sites, ht.targets⟩, hj⟩
    split
    · exact .answer trivial ⟨rfl, ht.tick, hj⟩
    · exact expansion_keeps (steady_slices g before) (fun q _ => ih q) _ _
        ⟨rfl, ht.tick.visit r, hj⟩

theorem answering_slices (setting : Setting) (target : Tracer.Target) (context : NodeId) :
    Keeps g (fun t => SliceSet.Follows g.store before t.slices) (fun _ => True)
      (answering setting (follow setting) target context) := by
  refine (node_keeps context).bind fun context hc => ?_
  cases target with
  | name name => exact follow_slices setting _ _
  | this node =>
    exact thisOccurrence_keeps (steady_slices g before) (fun q _ => follow_slices setting _ q) node
      hc ""

end Trace

namespace Tracer

variable {g : Service} {t : Tracer}

theorem Honest.query_slices (ht : t.Honest g) (setting : Trace.Setting) (target : Target)
    (context : NodeId) {before : SliceSet} (hb : before.Distinct) :
    (t.query setting target context before).2.Honest g ∧
      SliceSet.Follows g.store before (t.query setting target context before).2.slices := by
  have hends := Trace.answering_slices setting target context _ _
    ⟨rfl, ht.started setting.options.deadline before, SliceSet.Follows.refl hb⟩
  exact hends.same.2.2

/-- The tracer was made for `g`, and has answered queries since, under any settings and into any
slices. -/
inductive Used (g : Service) : Tracer → Prop
  | new : Used g (Tracer.new g)
  | query {t : Tracer} (ht : Used g t) (setting : Trace.Setting) (target : Target)
    (context : NodeId) (initial : List Slice) :
    Used g (t.query setting target context (.ofList initial)).2

theorem Used.honest (ht : t.Used g) : t.Honest g := by
  induction ht with
  | new => exact honest_new g
  | query _ setting target context initial ih =>
    exact (ih.query_slices setting target context (SliceSet.distinct_ofList initial)).1

/-- **Slices are only appended, never repeated, and stand at real places.** Whatever the tracer was
asked before, and however the query ends, the slices from before are still there in front, no two
slices share both code and location, and each slice that was added is that of a node of the graph, at
the location of the node. -/
theorem query_appends (ht : t.Used g) (setting : Trace.Setting) (target : Target)
    (context : NodeId) (initial : List Slice) :
    let before := SliceSet.ofList initial
    let after := (t.query setting target context before).2.slices
    after.Distinct ∧ ∃ added, after.slices = before.slices ++ added ∧
      ∀ slice ∈ added, ∃ node, g.store.Holds node ∧ slice.node = some node.id ∧
        slice.location = node.location := by
  intro before after
  have hquery := ht.honest.query_slices setting target context (SliceSet.distinct_ofList initial)
  exact ⟨hquery.2.distinct, hquery.2.added⟩

end Tracer

/-- A page with the statements `x = location` and one whose expression is missing, both of which
produce `x` for a third. -/
def tornPage : Store :=
  .ofLists
    [{ id := 1, type := .program },
     { id := 2, type := .expressionStatement, location := "line:1" },
     { id := 3, type := .assignmentExpression, code := "=" },
     { id := 4, type := .identifier, code := "x" },
     { id := 5, type := .identifier, code := "location" },
     { id := 6, type := .expressionStatement, location := "line:2" },
     { id := 7, type := .expressionStatement, location := "line:3" }]
    [{ source := 1, target := 2, relation := .ast, relationType := "body" },
     { source := 2, target := 3, relation := .ast, relationType := "expression" },
     { source := 3, target := 4, relation := .ast, relationType := "left" },
     { source := 3, target := 5, relation := .ast, relationType := "right" },
     { source := 1, target := 6, relation := .ast, relationType := "body" },
     { source := 6, target := 8, relation := .ast, relationType := "expression" },
     { source := 1, target := 7, relation := .ast, relationType := "body" },
     { source := 2, target := 7, relation := .pdg, arguments := "x" },
     { source := 6, target := 7, relation := .pdg, arguments := "x" }]

namespace tornPage

def setting : Trace.Setting := ⟨⟨["location"]⟩, { layout := false }⟩

/-- Time for one request, and nothing that is taken for given. -/
def hurried : Trace.Setting := ⟨⟨[]⟩, { layout := false, deadline := ⟨some 1⟩ }⟩

/-- A tracer that has been asked for `x` at the third statement in a hurry. -/
def used : Tracer := ((Tracer.new tornPage.service).query hurried (.name "x") 7 (.ofList [])).2

/-- The query again with time enough, and with slices that are there already. -/
def asked : Except GraphFault Unit × Tracer :=
  used.query setting (.name "x") 7 (.ofList [{ code := "y = x" }, { code := "y = x" }])

/-- The slice of the first statement. -/
def shown : Slice :=
  { code := "x = location", identifiers := ["x", "location"], location := "line:1", node := some 2 }

end tornPage

/-- In the first query the deadline passes behind the slice of the first statement. The second query
fails at the broken statement, and has added that slice behind what was there. -/
theorem Tracer.query_appends_tornPage :
    tornPage.used.truncation = some .deadline ∧ tornPage.used.slices.slices = [tornPage.shown] ∧
    (∃ added, tornPage.used.slices.slices = [] ++ added ∧
      ∀ slice ∈ added, ∃ node, tornPage.Holds node ∧ slice.node = some node.id ∧
        slice.location = node.location) ∧
    tornPage.used.Used tornPage.service ∧ tornPage.asked.1 = .error (.missingNode 8) ∧
    tornPage.asked.2.slices.slices = [{ code := "y = x" }, tornPage.shown] ∧
    tornPage.asked.2.slices.Distinct ∧
    ∃ added, tornPage.asked.2.slices.slices =
        (SliceSet.ofList [{ code := "y = x" }, { code := "y = x" }]).slices ++ added ∧
      ∀ slice ∈ added, ∃ node, tornPage.Holds node ∧ slice.node = some node.id ∧
        slice.location = node.location := by
  have ht : tornPage.used.Used tornPage.service := .query .new tornPage.hurried (.name "x") 7 []
  have hused : tornPage.used.truncation = some .deadline ∧
      tornPage.used.slices.slices = [tornPage.shown] := by
    decide +kernel
  have hrun : tornPage.asked.1 = .error (.missingNode 8) ∧ tornPage.asked.2.slices.slices =
      [{ code := "y = x" }, tornPage.shown] := by
    decide +kernel
  refine ⟨hused.1, hused.2, ?_, ht, hrun.1, hrun.2, ?_⟩
  · unfold tornPage.used
    exact (query_appends .new tornPage.hurried (.name "x") 7 []).2
  · unfold tornPage.asked
    exact query_appends ht tornPage.setting (.name "x") 7 [{ code := "y = x" }, { code := "y = x" }]

end RequestFlow

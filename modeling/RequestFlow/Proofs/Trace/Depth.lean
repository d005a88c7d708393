/-
How deep a trace may go. A query that is not cut short answers the same under
any larger depth. On a page without `this`, a query that is not cut short shows
all that it shows under a smaller depth, but for the scope that a text is shown
in.

Between two depths that both cut the query short nothing is kept: a pair that is
first met at the end of a long way is expanded there, at a depth where what it
leads to is cut off, and is not expanded again at the end of a shorter way.
-/
import RequestFlow.Proofs.Owner.Stored
import RequestFlow.Proofs.Trace.Exact
import RequestFlow.Proofs.Trace.Steps

namespace RequestFlow

namespace Trace

/-- The setting with another depth. -/
def Setting.upTo (setting : Setting) (depth : Nat) : Setting :=
  { setting with options := { setting.options with maxDepth := depth } }

variable {α β : Type}

/-- Unless it ends cut short, the first step was not cut short before, and the second does the
same. -/
def Extends (m n : Trace α) : Prop :=
  ∀ t : Tracer, (m.run.run t).2.truncation = none →
    t.truncation = none ∧ n.run.run t = m.run.run t

namespace Extends

/-- A step that cannot be cut short. -/
theorem of_keeps {m : Trace α} (h : ∀ t, (m.run.run t).2.truncation = t.truncation) :
    Extends m m := fun t ht => ⟨(h t).symm.trans ht, rfl⟩

theorem ask (question : Service → Except GraphFault α) : Extends (ask question) (ask question) :=
  of_keeps fun _ => rfl

theorem bind {m n : Trace α} {f f' : α → Trace β} (hm : Extends m n)
    (hf : ∀ a, Extends (f a) (f' a)) : Extends (m >>= f) (n >>= f') := by
  intro t h
  rw [run_bind] at h
  rw [run_bind, run_bind]
  generalize hx : m.run.run t = x at h
  obtain ⟨outcome, s⟩ := x
  have hs : s.truncation = none := by
    cases outcome with
    | ok a => exact (hf a s h).1
    | error fault => exact h
  obtain ⟨ht, hn⟩ := hm t (by rw [hx]; exact hs)
  refine ⟨ht, ?_⟩
  rw [hn, hx]
  cases outcome with
  | ok a => exact (hf a s h).2
  | error fault => rfl

/-- A note changes nothing that can cut a trace short. -/
theorem remembered {table : Tracer → List (NodeId × α)} {note : List (NodeId × α) → Tracer → Tracer}
    (hn : ∀ entries t, (note entries t).truncation = t.truncation)
    (question : Service → NodeId → Except GraphFault α) (id : NodeId) :
    Extends (remembered table note question id) (remembered table note question id) :=
  .of_keeps (remembered_keeps_field hn question id)

theorem congruence (setting : Setting) : Congruence setting Extends where
  pure _ := of_keeps fun _ => rfl
  bind := bind
  ask := ask
  callSites _ := by
    unfold callSites
    exact remembered (by intros; rfl) _ _
  callTarget? _ := remembered (by intros; rfl) _ _
  emit _ := of_keeps fun _ => rfl
  resolve this := of_keeps fun t => by rw [run_resolve]

end Extends

/-- More levels change nothing in a trace that is not cut short. -/
theorem follow_extends {setting : Setting} {levels levels' : Nat} (h : levels ≤ levels')
    (r : Request) : Extends (follow setting levels r) (follow setting levels' r) := by
  induction levels generalizing levels' r with
  | zero => exact fun t ht => nomatch ht
  | succ levels ih =>
    obtain ⟨more, rfl⟩ : ∃ more, levels' = more + 1 := ⟨levels' - 1, by omega⟩
    have hd : ∀ q : Request, True → Extends (follow setting levels q) (follow setting more q) :=
      fun q _ => ih (by omega) q
    have hR := Extends.congruence setting
    refine hR.expand (.of_keeps fun _ => rfl) (fun _ h => nomatch h) (.of_keeps fun _ => rfl)
      (.of_keeps fun _ => rfl) _ _ fun producer => ?_
    refine hR.producerStep (P := fun _ => True) hd trivial (fun function site => ?_) producer
    exact hR.siteStep (P := fun _ => True) (fun _ => trivial) hd function site

/-- The depth is looked at nowhere but at the start. -/
theorem follow_upTo (setting : Setting) (depth levels : Nat) :
    follow (setting.upTo depth) levels = follow setting levels := by
  induction levels with
  | zero => rfl
  | succ levels ih =>
    funext r
    have hsucc : follow (setting.upTo depth) (levels + 1) r =
        expand (producerStep setting (follow (setting.upTo depth) levels)
          (siteStep setting (follow (setting.upTo depth) levels) r) r) r := rfl
    rw [hsucc, ih]
    rfl

/-- More depth changes nothing in a query that is not cut short. -/
theorem answering_extends (setting : Setting) {depth depth' : Nat} (hd : depth ≤ depth')
    (target : Tracer.Target) (context : NodeId) :
    Extends (answering (setting.upTo depth) (follow (setting.upTo depth)) target context)
      (answering (setting.upTo depth') (follow (setting.upTo depth')) target context) := by
  refine (Extends.ask (·.node context)).bind fun context => ?_
  cases target with
  | name name =>
    change Extends (follow (setting.upTo depth) depth _) (follow (setting.upTo depth') depth' _)
    rw [follow_upTo, follow_upTo]
    exact follow_extends hd _
  | this node =>
    change Extends
      (thisOccurrence setting (follow (setting.upTo depth) (depth - 1)) node context "" 0)
      (thisOccurrence setting (follow (setting.upTo depth') (depth' - 1)) node context "" 0)
    rw [follow_upTo, follow_upTo]
    have hlevels : depth - 1 ≤ depth' - 1 := by omega
    exact (Extends.congruence setting).thisOccurrence (P := fun _ => True)
      (fun q _ => follow_extends hlevels q) trivial node context 0

end Trace

namespace Tracer

/-- A query for a name on a new tracer, to that depth. -/
def traceUpTo (store : Store) (setting : Trace.Setting) (name : String) (context : NodeId)
    (depth : Nat) : Except GraphFault Unit × Tracer :=
  (Tracer.new store.service).query (setting.upTo depth) (.name name) context

variable {store : Store} {setting : Trace.Setting} {name : String} {context : NodeId}

theorem traceUpTo_eq (depth : Nat) :
    traceUpTo store setting name context depth =
      (Trace.ask (·.node context) >>= fun context => Trace.follow setting depth
        { name, context, scope := "", depth := 0 }).run.run
          ((Tracer.new store.service).started setting.options.deadline {}) := by
  rw [← Trace.follow_upTo setting depth]
  rfl

/-- On a page without `this`, a query finds only what its first pair leads to, and when it is not
cut short, all of it. -/
theorem traceUpTo_walks (hp : store.service.Plain) (hn : store.hasNode context = true)
    (name : String) (depth : Nat) :
    ∃ t, traceUpTo store setting name context depth = (.ok (), t) ∧
      Trace.Advances store.service setting (name, context)
        ((Tracer.new store.service).started setting.options.deadline {}) t ∧
      (t.truncation = none → (name, context) ∈ t.visited) := by
  have hd : Trace.Descends store.service setting (name, context) (Trace.follow setting depth) :=
    Trace.follow_walks hp depth
  obtain ⟨t, hrun, -, ha, hmet⟩ := Trace.request_walks hp hn hd _
    ((honest_new store.service).started setting.options.deadline {})
  exact ⟨t, (traceUpTo_eq depth).trans hrun, ha, fun ht => hmet ht _ rfl⟩

/-- **A depth that cuts nothing short loses nothing.** A query that is not cut short answers the same
under any larger depth, and on a page without `this` it shows each text that it shows under a smaller
depth, at the same location. -/
theorem query_deeper (store : Store) (setting : Trace.Setting) (name : String) (context : NodeId)
    {depth depth' : Nat} (hd : depth ≤ depth') :
    ((traceUpTo store setting name context depth).2.truncation = none →
      traceUpTo store setting name context depth' = traceUpTo store setting name context depth) ∧
    (store.Closed → store.WithoutThis →
      (traceUpTo store setting name context depth').2.truncation = none →
      ∀ slice ∈ (traceUpTo store setting name context depth).2.slices.slices,
        ∃ slice' ∈ (traceUpTo store setting name context depth').2.slices.slices,
          slice'.location = slice.location ∧
          ∃ text, slice.Shows setting.options text ∧ slice'.Shows setting.options text) := by
  constructor
  · intro hn
    rw [traceUpTo_eq] at hn
    rw [traceUpTo_eq, traceUpTo_eq]
    refine ((Trace.Extends.ask (·.node context)).bind fun context => ?_) _ hn |>.2
    exact Trace.follow_extends hd { name, context, scope := "", depth := 0 }
  · intro hc hw hn slice hm
    have hp : store.service.Plain := Store.plain_service hc hw
    by_cases hnode : store.hasNode context = true
    · obtain ⟨t, hrun, ha, -⟩ := traceUpTo_walks hp hnode name depth
      obtain ⟨t', hrun', ha', hstart⟩ := traceUpTo_walks hp hnode name depth'
      rw [hrun] at hm
      rw [hrun'] at hn ⊢
      obtain ⟨pair, text, hr, hl, hshows⟩ := (ha.shown slice hm).resolve_left nofun
      obtain ⟨slice', hm', hshows', hloc⟩ := ha'.met_of_reaches rfl hn (hstart hn) hr hl
      exact ⟨slice', hm', hloc, text, hshows, hshows'⟩
    · have hmissing : store.service.node context = .error (.missingNode context) :=
        Service.node_of_missing (fun _ => rfl) (Bool.eq_false_iff.mpr hnode)
      have hnew : (traceUpTo store setting name context depth).2 =
          (Tracer.new store.service).started setting.options.deadline {} := by
        rw [traceUpTo_eq, run_bind, Trace.run_ask]
        dsimp only [Tracer.graph, Tracer.new, Tracer.started]
        rw [hmissing]
      rw [hnew] at hm
      cases hm

/-- **A depth that cuts nothing short decides nothing.** A query of either kind that is not cut short
ends under any larger depth with the same outcome, and leaves the same tracer: the same slices in the
same order, no mark that it was cut short, and the same depth reached. -/
theorem query_upTo (t : Tracer) (setting : Trace.Setting) (target : Target) (context : NodeId)
    (slices : SliceSet) {depth depth' : Nat} (hd : depth ≤ depth')
    (hn : (t.query (setting.upTo depth) target context slices).2.truncation = none) :
    t.query (setting.upTo depth') target context slices =
      t.query (setting.upTo depth) target context slices := by
  exact (Trace.answering_extends setting hd target context _ hn).2

end Tracer

/-- The query for `this` in the function that has two owners, to that depth. -/
def sharedPage.askedUpTo (depth : Nat) : Except GraphFault Unit × Tracer :=
  (Tracer.new sharedPage.service).query (Trace.Setting.upTo ⟨⟨[]⟩, {}⟩ depth) (.this 6) 5

/-- The depth 1 cuts the owners off, the depth 2 does not, and no larger one finds more. -/
theorem Tracer.query_upTo_sharedPage :
    (sharedPage.askedUpTo 1).2.truncation = some .depth ∧
    (sharedPage.askedUpTo 2).2.truncation = none ∧ (sharedPage.askedUpTo 2).2.deepest = 2 ∧
    ∀ depth, 2 ≤ depth → sharedPage.askedUpTo depth = sharedPage.askedUpTo 2 := by
  have hcut : (sharedPage.askedUpTo 1).2.truncation = some .depth := by decide +kernel
  have hrun : (sharedPage.askedUpTo 2).2.truncation = none ∧
      (sharedPage.askedUpTo 2).2.deepest = 2 := by decide +kernel
  refine ⟨hcut, hrun.1, hrun.2, fun depth hd => ?_⟩
  exact query_upTo (new sharedPage.service) ⟨⟨[]⟩, {}⟩ (.this 6) 5 {} hd hrun.1

/-- A page with the statements `z = location.hash; y = z; for (;;) { a = x; x = a + y } fetch(x)`. -/
def loopPage : Store :=
  .ofLists
    [{ id := 1, type := .program },
     { id := 2, type := .expressionStatement, location := "line:1" },
     { id := 3, type := .assignmentExpression, code := "=" },
     { id := 4, type := .identifier, code := "z" },
     { id := 5, type := .memberExpression },
     { id := 6, type := .identifier, code := "location" },
     { id := 7, type := .identifier, code := "hash" },
     { id := 8, type := .expressionStatement, location := "line:2" },
     { id := 9, type := .assignmentExpression, code := "=" },
     { id := 10, type := .identifier, code := "y" },
     { id := 11, type := .identifier, code := "z" },
     { id := 12, type := .forStatement }, { id := 13, type := .blockStatement },
     { id := 14, type := .expressionStatement, location := "line:3" },
     { id := 15, type := .assignmentExpression, code := "=" },
     { id := 16, type := .identifier, code := "a" },
     { id := 17, type := .identifier, code := "x" },
     { id := 18, type := .expressionStatement, location := "line:4" },
     { id := 19, type := .assignmentExpression, code := "=" },
     { id := 20, type := .identifier, code := "x" },
     { id := 21, type := .binaryExpression, code := "+" },
     { id := 22, type := .identifier, code := "a" },
     { id := 23, type := .identifier, code := "y" },
     { id := 24, type := .expressionStatement, location := "line:5" },
     { id := 25, type := .callExpression }, { id := 26, type := .identifier, code := "fetch" },
     { id := 27, type := .identifier, code := "x" }]
    [{ source := 1, target := 2, relation := .ast, relationType := "body" },
     { source := 2, target := 3, relation := .ast, relationType := "expression" },
     { source := 3, target := 4, relation := .ast, relationType := "left" },
     { source := 3, target := 5, relation := .ast, relationType := "right" },
     { source := 5, target := 6, relation := .ast, relationType := "object" },
     { source := 5, target := 7, relation := .ast, relationType := "property" },
     { source := 1, target := 8, relation := .ast, relationType := "body" },
     { source := 8, target := 9, relation := .ast, relationType := "expression" },
     { source := 9, target := 10, relation := .ast, relationType := "left" },
     { source := 9, target := 11, relation := .ast, relationType := "right" },
     { source := 1, target := 12, relation := .ast, relationType := "body" },
     { source := 12, target := 13, relation := .ast, relationType := "body" },
     { source := 13, target := 14, relation := .ast, relationType := "body" },
     { source := 14, target := 15, relation := .ast, relationType := "expression" },
     { source := 15, target := 16, relation := .ast, relationType := "left" },
     { source := 15, target := 17, relation := .ast, relationType := "right" },
     { source := 13, target := 18, relation := .ast, relationType := "body" },
     { source := 18, target := 19, relation := .ast, relationType := "expression" },
     { source := 19, target := 20, relation := .ast, relationType := "left" },
     { source := 19, target := 21, relation := .ast, relationType := "right" },
     { source := 21, target := 22, relation := .ast, relationType := "left" },
     { source := 21, target := 23, relation := .ast, relationType := "right" },
     { source := 1, target := 24, relation := .ast, relationType := "body" },
     { source := 24, target := 25, relation := .ast, relationType := "expression" },
     { source := 25, target := 26, relation := .ast, relationType := "callee" },
     { source := 25, target := 27, relation := .ast, relationType := "arguments" },
     { source := 18, target := 24, relation := .pdg, arguments := "x" },
     { source := 14, target := 18, relation := .pdg, arguments := "a" },
     { source := 18, target := 14, relation := .pdg, arguments := "x" },
     { source := 8, target := 18, relation := .pdg, arguments := "y" },
     { source := 2, target := 8, relation := .pdg, arguments := "z" }]

namespace loopPage

/-- Tracing without layout, where only `location` is taken for given. -/
def setting : Trace.Setting := ⟨⟨["location"]⟩, { layout := false }⟩

/-- What a query for `x` at `fetch(x)` shows to that depth, with locations. -/
def shown (depth : Nat) : List (String × String) :=
  (Tracer.traceUpTo loopPage setting "x" 24 depth).2.slices.slices.map fun slice =>
    (slice.code, slice.location)

end loopPage

/-- To the depth 5 the query is not cut short, and shows all that it shows to the depth 3. -/
theorem Tracer.query_deeper_loopPage :
    loopPage.Closed ∧ loopPage.WithoutThis ∧
    (traceUpTo loopPage loopPage.setting "x" 24 5).2.truncation = none ∧
    (traceUpTo loopPage loopPage.setting "x" 24 3).2.truncation = some .depth ∧
    ∀ slice ∈ (traceUpTo loopPage loopPage.setting "x" 24 3).2.slices.slices,
      ∃ slice' ∈ (traceUpTo loopPage loopPage.setting "x" 24 5).2.slices.slices,
        slice'.location = slice.location ∧ ∃ text,
          slice.Shows loopPage.setting.options text ∧
          slice'.Shows loopPage.setting.options text := by
  have hc : loopPage.Closed := by decide +kernel
  have hw : loopPage.WithoutThis := by decide +kernel
  have hn : (traceUpTo loopPage loopPage.setting "x" 24 5).2.truncation = none := by decide +kernel
  have hcut : (traceUpTo loopPage loopPage.setting "x" 24 3).2.truncation = some .depth := by
    decide +kernel
  have hd : 3 ≤ 5 := by omega
  exact ⟨hc, hw, hn, hcut, (query_deeper loopPage loopPage.setting "x" 24 hd).2 hc hw hn⟩

/-- Between depths that both cut the query short, the larger one loses `z = location.hash`. -/
theorem Tracer.query_loopPage_lost :
    loopPage.Closed ∧ loopPage.AstAcyclic ∧
    ("z = location.hash", "line:1") ∈ loopPage.shown 3 ∧
    ("z = location.hash", "line:1") ∉ loopPage.shown 4 :=
  ⟨by decide +kernel, Store.astAcyclic_of_lt (by decide +kernel), by decide +kernel,
    by decide +kernel⟩

end RequestFlow

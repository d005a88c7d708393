/-
How far a trace goes. It asks for names that identifiers bear and for what flows
in as `this`, each at a node of the graph, and expands a pair of a name and a
node once. So the requests under way at one time are no more than there are such
pairs, and a larger depth is never used up, whatever cycles the data dependencies
and the calls form.
-/
import Mathlib.Data.Finset.Prod
import RequestFlow.Proofs.Trace.Depth
import RequestFlow.Proofs.Trace.Keeps
import RequestFlow.Proofs.Trace.Restricted

namespace RequestFlow

/-- The marks of a query under way: the pairs in the order of their expansion, the latest first, how
deep it went, and whether it was cut short. -/
structure Marks where
  visited : List (String × NodeId)
  deepest : Nat
  truncation : Option Truncation

def Tracer.marks (t : Tracer) : Marks := ⟨t.visited, t.deepest, t.truncation⟩

/-- Notes, owners and slices are no marks. -/
theorem Trace.steady_marks (g : Service) (J : Marks → Prop) : Steady g fun t => J t.marks :=
  ⟨fun h _ => h, fun h _ => h, fun h _ => h, fun h _ _ => h⟩

/-! ## Pairs of a name and a node -/

namespace Store

/-- The names that identifiers bear. -/
def names (store : Store) : Finset String :=
  ((store.nodes.toList.filter (·.type == .identifier)).map (·.code)).toFinset

/-- The pairs that a trace from `start` may expand. -/
def pairsFrom (store : Store) (start : String) : Finset (String × NodeId) :=
  insert start (insert thisVariable store.names) ×ˢ (store.nodes.toList.map (·.id)).toFinset

variable {store : Store}

theorem card_pairsFrom_le (start : String) :
    (store.pairsFrom start).card ≤ (store.names.card + 2) * store.nodeCount := by
  have hnames : (insert start (insert thisVariable store.names)).card ≤ store.names.card + 2 :=
    (Finset.card_insert_le _ _).trans (Nat.succ_le_succ (Finset.card_insert_le _ _))
  have hids : (store.nodes.toList.map (·.id)).toFinset.card ≤ store.nodeCount :=
    (List.toFinset_card_le _).trans (by simp [nodeCount])
  rw [pairsFrom, Finset.card_product]
  exact Nat.mul_le_mul hnames hids

theorem mem_ids {node : Node} (h : store.Holds node) :
    node.id ∈ (store.nodes.toList.map (·.id)).toFinset := by
  have hm := holds_iff_mem.mp h
  exact List.mem_toFinset.mpr (List.mem_map_of_mem (Array.mem_toList_iff.mpr hm))

theorem mem_pairsFrom_start {node : Node} (h : store.Holds node) (start : String) :
    (start, node.id) ∈ store.pairsFrom start :=
  Finset.mem_product.mpr ⟨Finset.mem_insert_self _ _, mem_ids h⟩

end Store

theorem Service.Asks.mem_pairsFrom {g : Service} {depth : Nat} {r : Request} (h : g.Asks depth r)
    (start : String) : (r.name, r.context.id) ∈ g.store.pairsFrom start := by
  refine Finset.mem_product.mpr ⟨Finset.mem_insert_of_mem ?_, Store.mem_ids h.context⟩
  rcases h.name with hthis | ⟨node, hn, ht, hc⟩
  · exact hthis ▸ Finset.mem_insert_self _ _
  · refine Finset.mem_insert_of_mem (List.mem_toFinset.mpr (List.mem_map.mpr ⟨node, ?_, hc⟩))
    exact List.mem_filter.mpr ⟨Array.mem_toList_iff.mpr (Store.holds_iff_mem.mp hn), by simp [ht]⟩

/-- The marks of a query under way: no pair was expanded twice, none but `pairs`, none deeper than
`limit`. Where the depth is `enough`, at least `count` pairs were expanded, and the trace was not cut
short by its depth. -/
structure Marks.Within (pairs : Finset (String × NodeId)) (limit : Nat) (enough : Prop) (count : Nat)
    (marks : Marks) : Prop where
  once : marks.visited.Nodup
  among : ∀ pair ∈ marks.visited, pair ∈ pairs
  deepest : marks.deepest ≤ limit
  count : enough → count ≤ marks.visited.length
  depth : enough → marks.truncation ≠ some .depth

namespace Marks.Within

variable {pairs : Finset (String × NodeId)} {limit count : Nat} {enough : Prop} {marks : Marks}

theorem length_le (h : marks.Within pairs limit enough count) :
    marks.visited.length ≤ pairs.card := by
  rw [← List.toFinset_card_of_nodup h.once]
  exact Finset.card_le_card fun pair hm => h.among pair (List.mem_toFinset.mp hm)

theorem of_succ (h : marks.Within pairs limit enough (count + 1)) :
    marks.Within pairs limit enough count :=
  ⟨h.once, h.among, h.deepest, fun he => Nat.le_of_succ_le (h.count he), h.depth⟩

end Marks.Within

namespace Trace

variable {g : Service} {setting : Setting} {start : String} {limit : Nat} {enough : Prop}

/-- The producers of a request are looked up only where its pair is not listed yet, and with the lookup
it is listed: every lookup is an entry of its own. Without a lookup nothing changes but the clock and
the mark that the trace was cut short. -/
theorem run_expand_lookup (step : Node → Trace Unit) (r : Request) (t : Tracer) :
    (∃ cut, (cut = t.truncation ∨ cut = some .deadline) ∧
      (expand step r).run.run t = (.ok (), { t.tick with truncation := cut })) ∨
    (r.name, r.context.id) ∉ t.visited ∧
      (expand step r).run.run t = (do
        let producers ← ask (·.producers r.name r.context.id r.declarations)
        producers.forM step).run.run (t.tick.visit r) := by
  rw [run_expand]
  split
  · exact .inl ⟨_, .inr rfl, rfl⟩
  split
  · exact .inl ⟨_, .inl rfl, rfl⟩
  next hnew => exact .inr ⟨hnew, rfl⟩

/-- Following a request keeps the bounds. With every level that is gone one more pair has been
expanded, so where there are more levels than pairs they are never used up. -/
theorem follow_keeps (levels : Nat) {count : Nat} {r : Request}
    (hr : (r.name, r.context.id) ∈ g.store.pairsFrom start)
    (he : enough → (g.store.pairsFrom start).card < levels + count)
    (hlimit : levels ≠ 0 → r.depth + levels ≤ limit) :
    Keeps g (·.marks.Within (g.store.pairsFrom start) limit enough count) (fun _ => True)
      (follow setting levels r) := by
  induction levels generalizing count r with
  | zero =>
    rintro t _ ⟨rfl, ht, hj⟩
    have hshort : ¬ enough := by
      intro henough
      have := he henough
      have := hj.count henough
      have := hj.length_le
      omega
    exact .answer trivial ⟨rfl, ⟨ht.alike, ht.sites, ht.targets⟩, hj.once, hj.among, hj.deepest,
      fun h => absurd h hshort, fun h => absurd h hshort⟩
  | succ levels ih =>
    rintro t _ ⟨rfl, ht, hj⟩
    rw [follow_succ]
    obtain ⟨cut, hcut, hrun⟩ | ⟨hnew, hrun⟩ := run_expand_lookup
      (producerStep setting (follow setting levels) (siteStep setting (follow setting levels) r) r) r t
    · rw [hrun]
      refine .answer trivial ⟨rfl, ⟨ht.alike, ht.sites, ht.targets⟩, hj.once, hj.among, hj.deepest,
        hj.count, fun henough => ?_⟩
      obtain rfl | rfl := hcut
      · exact hj.depth henough
      · exact fun h => by cases h
    have hlevel : r.depth + (levels + 1) ≤ limit := hlimit (Nat.succ_ne_zero levels)
    have hd : ∀ q, g.Asks (r.depth + 1) q →
        Keeps g (·.marks.Within (g.store.pairsFrom start) limit enough (count + 1)) (fun _ => True)
          (follow setting levels q) := by
      intro q hq
      refine ih (hq.mem_pairsFrom start) (fun henough => ?_) fun _ => ?_
      · have := he henough
        omega
      · have := hq.depth
        omega
    have hmarked : (t.tick.visit r).marks.Within (g.store.pairsFrom start) limit enough (count + 1) :=
      { once := List.nodup_cons.mpr ⟨hnew, hj.once⟩
        among := List.forall_mem_cons.mpr ⟨hr, hj.among⟩
        deepest := Nat.max_le.mpr ⟨hj.deepest, by omega⟩
        count := fun henough => Nat.succ_le_succ (hj.count henough)
        depth := hj.depth }
    rw [hrun]
    refine (expansion_keeps (steady_marks g _) hd _ _ ⟨rfl, ht.tick.visit r, hmarked⟩).mono ?_
    rintro _ _ ⟨hsame, hh, hj⟩
    exact ⟨hsame, hh, hj.of_succ⟩

end Trace

/-- The first name that a query asks for. -/
def Tracer.Target.start : Target → String
  | .name asked => asked
  | .this _ => thisVariable

/-- A query keeps the bounds. One for `this` begins a level further down. -/
theorem Trace.answering_keeps (g : Service) (setting : Setting) (target : Tracer.Target)
    (context : NodeId) :
    Keeps g (·.marks.Within (g.store.pairsFrom target.start) setting.options.maxDepth
        ((g.store.pairsFrom target.start).card + 1 < setting.options.maxDepth) 0) (fun _ => True)
      (answering setting (follow setting) target context) := by
  refine (node_keeps context).bind fun context hc => ?_
  cases target with
  | name name =>
    refine follow_keeps _ (Store.mem_pairsFrom_start hc name) (fun he => ?_) fun _ => ?_
    · omega
    · exact (Nat.zero_add _).le
  | this node =>
    refine thisOccurrence_keeps (steady_marks g _) (fun q hq => ?_) node hc ""
    refine follow_keeps _ (hq.mem_pairsFrom _) (fun he => ?_) fun hlevels => ?_
    · omega
    · have := hq.depth
      omega

namespace Tracer

variable {g : Service} {t : Tracer}

theorem query_within {setting : Trace.Setting} (ht : t.Honest g)
    (hd : t.deepest ≤ setting.options.maxDepth) (target : Target) (context : NodeId)
    (slices : SliceSet) :
    (t.query setting target context slices).2.marks.Within (g.store.pairsFrom target.start)
      setting.options.maxDepth
      ((g.store.pairsFrom target.start).card + 1 < setting.options.maxDepth) 0 := by
  have hstart : (t.started setting.options.deadline slices).marks.Within
      (g.store.pairsFrom target.start) setting.options.maxDepth
      ((g.store.pairsFrom target.start).card + 1 < setting.options.maxDepth) 0 :=
    ⟨List.nodup_nil, nofun, hd, fun _ => Nat.zero_le _, fun _ => nofun⟩
  have hends := Trace.answering_keeps g setting target context _ _ ⟨rfl, ht.started _ slices, hstart⟩
  exact hends.same.2.2.2

theorem deepest_after_le (g : Service) (setting : Trace.Setting) (queries : List Query) :
    ((Tracer.new g).after setting queries).deepest ≤ setting.options.maxDepth := by
  induction queries using List.reverseRecOn with
  | nil => exact Nat.zero_le _
  | append_singleton queries q ih =>
    rw [after, List.foldl_append]
    have hh := honest_after (honest_new g) setting queries
    exact (query_within hh ih q.target q.context q.slices).deepest

/-- **A trace is bounded.** Whatever was asked before, a query goes no deeper than it may. It lists each
pair of a name and a node whose producers it looks up as visited (`Trace.run_expand_lookup`), and lists
none twice, so it expands no more than there are names and nodes for. A depth beyond their number never
cuts it short, whatever cycles the edges form. -/
theorem query_bounded (g : Service) (setting : Trace.Setting) (earlier : List Query)
    (target : Target) (context : NodeId) (slices : SliceSet) :
    let pairs := (g.store.names.card + 2) * g.store.nodeCount
    let t := (((Tracer.new g).after setting earlier).query setting target context slices).2
    t.deepest ≤ setting.options.maxDepth ∧ t.visited.Nodup ∧ t.visited.length ≤ pairs ∧
      (pairs + 1 < setting.options.maxDepth → t.truncation ≠ some .depth) := by
  intro pairs t
  have hw := query_within (honest_after (honest_new g) setting earlier)
    (deepest_after_le g setting earlier) target context slices
  have hcard : (g.store.pairsFrom target.start).card ≤ pairs := Store.card_pairsFrom_le target.start
  refine ⟨hw.deepest, hw.once, hw.length_le.trans hcard, fun henough => hw.depth ?_⟩
  omega

end Tracer

/-- Seven names and 27 nodes make a depth of 245 enough for every query. The depth 3 is not. -/
theorem Tracer.query_bounded_loopPage :
    (∀ target context, ((Tracer.new loopPage.service).query ⟨⟨[]⟩, { maxDepth := 245 }⟩ target
      context).2.truncation ≠ some .depth) ∧
    ((Tracer.new loopPage.service).query ⟨⟨[]⟩, { maxDepth := 3 }⟩ (.name "x") 24).2.truncation =
      some .depth := by
  have hpairs : (loopPage.service.store.names.card + 2) * loopPage.service.store.nodeCount = 243 := by
    decide +kernel
  refine ⟨fun target context => ?_, by decide +kernel⟩
  obtain ⟨-, -, -, hdepth⟩ := Tracer.query_bounded loopPage.service ⟨⟨[]⟩, { maxDepth := 245 }⟩ []
    target context {}
  exact hdepth (by rw [hpairs]; decide)

end RequestFlow

/-
A webpage that is analysed, stored and analysed again. The owners of `this` that
the first analysis writes to the side table are read by the second, which gives
the same report and has nothing to add.
-/
import RequestFlow.Proofs.Analysis
import RequestFlow.Proofs.Owner.Replay
import RequestFlow.Proofs.Webpage.Append

namespace RequestFlow

/-! ## What is stored -/

/-- Stored edges join nodes of the graph, and can be written to a table. -/
theorem Resolver.Wrote.mem_written {b : Service} {r : Resolver} (h : Wrote b r)
    (hid : ∀ id, b.store.hasNode id = true → id < wordBound) {edge : Edge}
    (he : edge ∈ written r.known) :
    Table.Writable edge ∧ b.store.hasNode edge.source = true ∧ b.store.hasNode edge.target = true := by
  obtain ⟨entry, hm, he⟩ := List.mem_flatMap.mp he
  rw [List.mem_reverse] at hm
  obtain ⟨hsource, -, htarget⟩ := (h.resolved hm).edges he
  have hheld : b.store.hasNode edge.source = true := hsource ▸ h.held entry hm
  exact ⟨(Resolution.storesOwner he).writable (hid _ hheld) (hid _ htarget), hheld, htarget⟩

namespace Engine

/-- **Writing owners into the graph does not change the report.** -/
theorem analyse_keeping (engine : Engine) (store : Store) (page : Page) (keep keep' : Bool) :
    ((engine.keeping keep).analyse store.service page).1 =
      ((engine.keeping keep').analyse store.service page).1 := by
  have hw := Service.writesAlike_service store
  have hbridge : Resolver.Bridge .same keep keep' store.service store.service
      fun r r' => r.Sound keep store.service ∧ r'.Sound keep' store.service := by
    refine Resolver.bridge hw hw fun this he => ⟨he, ?_⟩
    refine Service.owned_agree (.self _) nofun he (.answer rfl) ?_
    cases keep <;> cases keep' <;> exact .answer trivial
  exact (analyse_twins (.self _) hbridge ⟨.new _ _, .new _ _⟩ engine page).1

section

variable (engine : Engine) (page : Page) {store : Store} (hf : store.AstForest)
  (hb : ∀ edge ∈ store.edges, edge.relation ≠ .pointsTo)
include hf hb

/-- What an analysis leaves behind on a tree without stored owners. -/
theorem lastResolver_wrote :
    let last := (engine.keeping true).lastResolver store.service page
    last.Sound true store.service ∧ last.Wrote store.service := by
  intro last
  have hw := Service.writesAlike_service store
  obtain ⟨⟨hs, -⟩, hwrote⟩ := (analyse_twins (.self _) (Resolver.bridge_wrote hb hw hf)
    ⟨⟨.new _ _, .new _ _⟩, .new _⟩ engine page).2
  exact ⟨hs, hwrote⟩

/-- **An analysis of the graph that an analysis has left** gives the same report and leaves the graph
as it is. -/
theorem analyse_again {store' : Store}
    (hr : ((engine.keeping true).analyse store.service page).2.Reloads store'.service) :
    (engine.keeping true).analyse store'.service page =
      (((engine.keeping true).analyse store.service page).1, store'.service) := by
  have hw := Service.writesAlike_service store
  obtain ⟨hs, hwrote⟩ := lastResolver_wrote engine page hf hb
  rw [analyse_graph] at hr
  have halike : Service.Alike .same store.service store'.service :=
    hs.alike.trans hr.alike (.self _)
  obtain ⟨hreport, -, hsame, hquiet⟩ := analyse_twins halike
    (Resolver.bridge_replay hb hw hwrote hs hr) ⟨⟨.new _ _, .new _ _⟩, rfl, .new _⟩ engine page
  have hgraph : ((engine.keeping true).lastResolver store'.service page).graph = store'.service := by
    refine hquiet fun this hm => ?_
    rw [hr.outgoing]
    exact hwrote.isSome_ofEdges? hb (hsame ▸ hm)
  refine Prod.ext hreport.symm ?_
  rw [analyse_graph, hgraph]

end

/-- **Stored owners never change a report.** On a tree without stored owners, an analysis that stores
them gives the report of one that does not. When they are written to a new side table, the graph can
be read again, and an analysis of it gives the same report and has no edge to add. -/
theorem analyse_reload (engine : Engine) (page : Page) {disk : Disk} {folder : Path} {store : Store}
    (hload : disk.run (Store.load folder) = (.ok store, disk)) (hf : store.AstForest)
    (hb : ∀ edge ∈ store.edges, edge.relation ≠ .pointsTo) :
    let first := (engine.keeping true).analyse store.service page
    first.1 = ((engine.keeping false).analyse store.service page).1 ∧
    ∀ {path : Path} {disk' : Disk}, disk.occupied (Path.under folder Store.ownersFile) = false →
      disk.run (Store.appendOwners folder first.2.store.created.toList) = (.ok path, disk') →
      ∃ store', disk'.run (Store.load folder) = (.ok store', disk') ∧
        let second := (engine.keeping true).analyse store'.service page
        second.1 = first.1 ∧ second.2.store.created = #[] := by
  intro first
  refine ⟨analyse_keeping engine store page true false, fun {path disk'} hnew happend => ?_⟩
  obtain ⟨hs, hwrote⟩ := lastResolver_wrote engine page hf hb
  obtain ⟨hnone, hid⟩ := Store.new_of_load hnew hload
  have hgraph := analyse_graph (engine.keeping true) store.service page
  generalize (engine.keeping true).lastResolver store.service page = last at hs hwrote hgraph
  have hcreated : first.2.store.created.toList = Resolver.written last.known := by
    rw [hgraph, hwrote.grown.created]
    change store.created.toList ++ _ = _
    rw [hnone]
    rfl
  rw [hcreated] at happend
  obtain ⟨store', hload', hnodes, hedges, hnone'⟩ := Store.load_appendOwners hnew hload happend
    (fun edge hm => (hwrote.mem_written hid hm).1) fun edge hm => (hwrote.mem_written hid hm).2
  have hr : first.2.Reloads store'.service := by
    refine ⟨?_, ?_, ?_⟩
    · rw [hgraph, hs.outage]
      rfl
    · rw [hgraph]
      exact hnodes.trans hwrote.grown.nodes.symm
    · rw [hgraph]
      exact Array.toList_inj.mp (hedges.trans hwrote.grown.edges.symm)
  refine ⟨store', hload', ?_⟩
  rw [analyse_again engine page hf hb hr]
  exact ⟨rfl, hnone'⟩

end Engine

/-- The nodes of `page.load = function () { fetch(this) }`, with the call right below the function. -/
def loadPageNodes : List Node :=
  [{ id := 1, type := .assignmentExpression }, { id := 2, type := .memberExpression },
   { id := 3, type := .identifier, code := "page" },
   { id := 4, type := .identifier, code := "load" }, { id := 5, type := .functionExpression },
   { id := 6, type := .callExpression }, { id := 7, type := .identifier, code := "fetch" },
   { id := 8, type := .thisExpression }]

def loadPageEdges : List Edge :=
  [{ source := 1, target := 2, relation := .ast, relationType := "left" },
   { source := 2, target := 3, relation := .ast, relationType := "object" },
   { source := 2, target := 4, relation := .ast, relationType := "property" },
   { source := 1, target := 5, relation := .ast, relationType := "right" },
   { source := 5, target := 6, relation := .ast, relationType := "body" },
   { source := 6, target := 7, relation := .ast, relationType := "callee" },
   { source := 6, target := 8, relation := .ast, relationType := "arguments" }]

/-- The lines of the table of nodes. -/
def loadPageRows : List String :=
  ["Id¿Type¿Code", "1¿AssignmentExpression¿", "2¿MemberExpression¿", "3¿Identifier¿page",
   "4¿Identifier¿load", "5¿FunctionExpression¿", "6¿CallExpression¿", "7¿Identifier¿fetch",
   "8¿ThisExpression¿"]

/-- A disk with the two tables in a folder. -/
def loadPage : Disk where
  entries :=
    [(["site"], .folder),
     (["site", "nodes.csv"], .ofText (String.join (loadPageRows.map (· ++ "\n")))),
     (["site", "rels.csv"], .ofText (Table.appendix true loadPageEdges))]

/-- The page is read, two edges are stored for its `this`, and they are read back. -/
theorem Engine.analyse_reload_loadPage :
    let engine : Engine := ⟨{}, {}, {}, []⟩
    let store := Store.ofTables loadPageNodes loadPageEdges
    let first := (engine.keeping true).analyse store.service {}
    loadPage.run (Store.load "site") = (.ok store, loadPage) ∧
    first.2.store.created.toList =
      [Resolution.edge 8 1 Resolution.topType "", Resolution.edge 8 3 Resolution.ownerType ""] ∧
    first.1 = ((engine.keeping false).analyse store.service {}).1 ∧
    ∃ path disk' store',
      loadPage.run (Store.appendOwners "site" first.2.store.created.toList) = (.ok path, disk') ∧
      disk'.run (Store.load "site") = (.ok store', disk') ∧
      let second := (engine.keeping true).analyse store'.service {}
      second.1 = first.1 ∧ second.2.store.created = #[] := by
  intro engine store first
  have hread : ∀ {text : String} {path : Path}, loadPage.find path = .ok (.ofText text) →
      loadPage.read path = .ok text := Disk.read_ofText
  have hnodes : Store.table Table.readNodes loadPage (Path.under "site" Store.nodesFile) =
      .ok loadPageNodes := by
    refine Store.table_eq_ok.mpr ⟨_, hread rfl, ?_⟩
    rw [Table.readNodes, Table.readRows, Chars.lines_join (by decide) (by decide)]
    decide +kernel
  have hedges : Store.table Table.readEdges loadPage (Path.under "site" Store.edgesFile) =
      .ok loadPageEdges := by
    exact Store.table_eq_ok.mpr ⟨_, hread rfl, Table.readEdges_appendix (by decide +kernel)⟩
  have hnew : loadPage.occupied (Path.under "site" Store.ownersFile) = false := rfl
  have hload : loadPage.run (Store.load "site") = (.ok store, loadPage) := by
    rw [Store.run_load, hnodes, hedges, Store.sideTable, hnew]
    rfl
  have hcreated : first.2.store.created.toList =
      [Resolution.edge 8 1 Resolution.topType "", Resolution.edge 8 3 Resolution.ownerType ""] := by
    decide +kernel
  have hmade : ∀ text, ∃ disk', loadPage.append (Path.under "site" Store.ownersFile) text =
      .ok disk' := fun text => ⟨_, rfl⟩
  have happend : ∀ edges, ∃ disk', loadPage.run (Store.appendOwners "site" edges) =
      (.ok (Path.under "site" Store.ownersFile), disk') := by
    intro edges
    obtain ⟨disk', hmade⟩ := hmade (Table.appendix true edges)
    refine ⟨disk', ?_⟩
    rw [Store.run_appendOwners]
    dsimp only
    rw [hnew, Bool.not_false, hmade]
  -- What the first analysis gives is a name from here on: unfolding it would run it again.
  have hmain := analyse_reload engine {} hload (by decide +kernel) (by decide +kernel)
  have hfirst : (engine.keeping true).analyse store.service {} = first := rfl
  dsimp only at hmain
  rw [hfirst] at hmain
  clear_value first
  obtain ⟨disk', happend⟩ := happend first.2.store.created.toList
  obtain ⟨store', hstore'⟩ := hmain.2 hnew happend
  exact ⟨hload, hcreated, hmain.1, _, disk', store', happend, hstore'⟩

end RequestFlow

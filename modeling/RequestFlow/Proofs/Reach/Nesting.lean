/-
Searches inside one another. A search enters the function around its node and
searches on from what runs the function; into a registration it looks with a
search of its own, which starts from the functions entered so far and whose
findings are thrown away. `Search.Calls` says which searches a search makes.

Each of them has one more function entered than the search that makes it. So
they lie no deeper in one another than there are functions, whatever cycles
calls and registrations form, and the search is the one solution of its own
equation: a bound on the nesting that is large enough plays no part in it.
-/
import Mathlib.Data.Finset.Card
import Mathlib.Data.Finset.SDiff
import RequestFlow.Proofs.Graph.Tree
import RequestFlow.Reach

namespace RequestFlow

namespace Store

/-- How many functions the program has. -/
def functionCount (store : Store) : Nat := (store.nodes.toList.filter (·.type.isFunction)).length

/-- The functions of the program. -/
def functions (store : Store) : Finset NodeId :=
  ((store.nodes.toList.filter (·.type.isFunction)).map Node.id).toFinset

variable {store : Store}

theorem Holds.mem_functions {node : Node} (hn : store.Holds node)
    (hf : node.type.isFunction = true) : node.id ∈ store.functions := by
  refine List.mem_toFinset.mpr (List.mem_map_of_mem (List.mem_filter.mpr ⟨?_, hf⟩))
  exact Array.mem_toList_iff.mpr (node?_eq_some.mp hn).1

theorem card_functions_le : store.functions.card ≤ store.functionCount := by
  calc store.functions.card
    _ ≤ ((store.nodes.toList.filter (·.type.isFunction)).map Node.id).length :=
      List.toFinset_card_le _
    _ = store.functionCount := List.length_map ..

theorem functionCount_le : store.functionCount ≤ store.nodeCount := by
  simpa [functionCount, nodeCount] using List.length_filter_le _ store.nodes.toList

end Store

namespace Search

variable {g : Service}

/-- A search from a node, with what is known when it starts, makes another one inside it: from a
step of the function that it enters, after the steps before that one. -/
inductive Calls (g : Service) (enter : NodeId → Search → Except GraphFault Search) :
    NodeId × Search → NodeId × Search → Prop
  | direct {node s function before next after s'} (hl : s.onPageLoad = false)
    (hf : g.enclosingFunction? node = .ok (some function)) (hn : function.id ∉ s.visited)
    (hs : (g.steps function).1 = before ++ .direct next :: after)
    (ht : before.foldlM (take g enter) { s with visited := function.id :: s.visited } = .ok s') :
    Calls g enter (node, s) (next, s')
  | registration {node s function before call after s'} (hl : s.onPageLoad = false)
    (hf : g.enclosingFunction? node = .ok (some function)) (hn : function.id ∉ s.visited)
    (hs : (g.steps function).1 = before ++ .registration call :: after)
    (ht : before.foldlM (take g enter) { s with visited := function.id :: s.visited } = .ok s')
    (hw : s'.witnesses.any (·.call == call) = false) :
    Calls g enter (node, s) (call, { visited := s'.visited })

/-! ## A search depends on the searches that it makes -/

section Congruence

variable {enter enter' : NodeId → Search → Except GraphFault Search}

theorem register_congr {call : NodeId} {s : Search}
    (h : s.witnesses.any (·.call == call) = false →
      enter' call { visited := s.visited } = enter call { visited := s.visited }) :
    register g enter' call s = register g enter call s := by
  unfold register
  split
  · rfl
  · next hw => rw [h (by simpa using hw)]

/-- The steps after those taken. -/
theorem foldlM_congr {node : NodeId} {s s' : Search} {function : Node}
    (h : ∀ next t, Calls g enter (node, s) (next, t) → enter' next t = enter next t)
    (hl : s.onPageLoad = false) (hf : g.enclosingFunction? node = .ok (some function))
    (hn : function.id ∉ s.visited) {before after : List Step}
    (hs : (g.steps function).1 = before ++ after)
    (ht : before.foldlM (take g enter) { s with visited := function.id :: s.visited } = .ok s') :
    after.foldlM (take g enter') s' = after.foldlM (take g enter) s' := by
  induction after generalizing before s' with
  | nil => rfl
  | cons step after ih =>
    have hstep : take g enter' s' step = take g enter s' step := by
      cases step with
      | direct next => exact h next s' (.direct hl hf hn hs ht)
      | registration call =>
        exact register_congr fun hw => h call _ (.registration hl hf hn hs ht hw)
    rw [List.foldlM_cons, List.foldlM_cons, hstep]
    cases ht' : take g enter s' step with
    | error fault => rfl
    | ok s'' =>
      have hbefore : (before ++ [step]).foldlM (take g enter)
          { s with visited := function.id :: s.visited } = .ok s'' := by
        rw [List.foldlM_append, ht]
        calc List.foldlM (take g enter) s' [step]
          _ = take g enter s' step >>= pure := List.foldlM_cons ..
          _ = .ok s'' := by rw [ht']; rfl
      exact ih (by simpa using hs) hbefore

theorem visit_congr {node : NodeId} {s : Search}
    (h : ∀ next t, Calls g enter (node, s) (next, t) → enter' next t = enter next t) :
    visit g enter' node s = visit g enter node s := by
  unfold visit
  split
  · rfl
  · next hl =>
    cases hf : g.enclosingFunction? node with
    | error fault => rfl
    | ok r =>
      cases r with
      | none => rfl
      | some function =>
        simp only [bind, Except.bind]
        split
        · rfl
        · next hn =>
          have hfold := foldlM_congr h (by simpa using hl) hf (by simpa using hn)
            (List.nil_append _).symm rfl
          rw [hfold]

end Congruence

/-! ## Functions entered -/

/-- A search that loses no function entered. -/
def Keeps (enter : NodeId → Search → Except GraphFault Search) : Prop :=
  ∀ node s s', enter node s = .ok s' → s.visited ⊆ s'.visited

section Keeps

variable {enter : NodeId → Search → Except GraphFault Search}

theorem register_visited {call : NodeId} {s s' : Search} (h : register g enter call s = .ok s') :
    s'.visited = s.visited := by
  unfold register at h
  split at h
  · cases h; rfl
  · obtain ⟨nested, -, h⟩ := exists_of_bind h
    split at h
    · obtain ⟨top, -, h⟩ := exists_of_bind h
      obtain ⟨verdict, -, h⟩ := exists_of_bind h
      cases h; rfl
    · cases h; rfl

theorem Keeps.take (hk : Keeps enter) {step : Step} {s s' : Search}
    (h : take g enter s step = .ok s') : s.visited ⊆ s'.visited := by
  cases step with
  | direct next => exact hk next s s' h
  | registration call => rw [register_visited h]; exact List.Subset.refl _

theorem Keeps.foldlM (hk : Keeps enter) {steps : List Step} {s s' : Search}
    (h : steps.foldlM (Search.take g enter) s = .ok s') : s.visited ⊆ s'.visited := by
  induction steps generalizing s with
  | nil => cases h; exact List.Subset.refl _
  | cons step steps ih =>
    rw [List.foldlM_cons] at h
    obtain ⟨s₁, hs₁, h⟩ := exists_of_bind h
    exact List.Subset.trans (hk.take hs₁) (ih h)

theorem Keeps.visit (hk : Keeps enter) : Keeps (visit g enter) := by
  intro node s s' h
  unfold Search.visit at h
  split at h
  · cases h; exact List.Subset.refl _
  · obtain ⟨r, -, h⟩ := exists_of_bind h
    split at h
    · cases h; exact List.Subset.refl _
    · split at h
      · cases h; exact List.Subset.refl _
      · obtain ⟨s₁, hs₁, h⟩ := exists_of_bind h
        split at h
        · cases h
        · cases h
          exact List.Subset.trans (List.subset_cons_self _ _) (hk.foldlM hs₁)

theorem keeps_enterUpTo (g : Service) (fuel : Nat) : Keeps (enterUpTo g fuel) := by
  induction fuel with
  | zero => intro _ _ _ h; cases h; exact List.Subset.refl _
  | succ fuel ih => exact ih.visit

/-- With the function around `node` entered and steps taken. -/
theorem Keeps.enters (hk : Keeps enter) {node : NodeId} {s s' : Search} {function : Node}
    {before : List Step} (hf : g.enclosingFunction? node = .ok (some function))
    (hn : function.id ∉ s.visited)
    (ht : before.foldlM (Search.take g enter) { s with visited := function.id :: s.visited } =
      .ok s') :
    s.visited ⊆ s'.visited ∧ ∃ id ∈ g.store.functions, id ∈ s'.visited ∧ id ∉ s.visited := by
  obtain ⟨hheld, hfun⟩ :=
    ((Service.enclosingFunction?_agree (.self g) node).of_ok hf).2 function rfl
  have hsub : function.id :: s.visited ⊆ s'.visited := hk.foldlM ht
  refine ⟨List.Subset.trans (List.subset_cons_self _ _) hsub, function.id, ?_, ?_, hn⟩
  · exact hheld.mem_functions hfun
  · exact hsub List.mem_cons_self

/-- A search made inside another has entered all that the other has, and the function around the
node of the other as well. -/
theorem Calls.enters (hk : Keeps enter) {node node' : NodeId} {s s' : Search}
    (h : Calls g enter (node, s) (node', s')) :
    s.visited ⊆ s'.visited ∧ ∃ id ∈ g.store.functions, id ∈ s'.visited ∧ id ∉ s.visited := by
  cases h with
  | direct _ hf hn _ ht => exact hk.enters hf hn ht
  | registration _ hf hn _ ht _ => exact (hk.enters hf hn ht :)

theorem Calls.visited_ssubset (hk : Keeps enter) {node node' : NodeId} {s s' : Search}
    (h : Calls g enter (node, s) (node', s')) : s.visited.toFinset ⊂ s'.visited.toFinset := by
  obtain ⟨hsub, id, -, hnew, hold⟩ := h.enters hk
  refine (Finset.ssubset_iff_of_subset ?_).mpr ⟨id, ?_, ?_⟩
  · exact fun id hm => List.mem_toFinset.mpr (hsub (List.mem_toFinset.mp hm))
  · exact List.mem_toFinset.mpr hnew
  · exact fun hm => hold (List.mem_toFinset.mp hm)

end Keeps

/-- How many functions a search may still enter. -/
def left (g : Service) (s : Search) : Nat := (g.store.functions \ s.visited.toFinset).card

theorem left_le (s : Search) : left g s ≤ g.store.functionCount :=
  (Finset.card_le_card Finset.sdiff_subset).trans Store.card_functions_le

theorem Calls.left_lt {enter : NodeId → Search → Except GraphFault Search} (hk : Keeps enter)
    {node node' : NodeId} {s s' : Search} (h : Calls g enter (node, s) (node', s')) :
    left g s' < left g s := by
  obtain ⟨-, id, hid, hnew, hold⟩ := h.enters hk
  have hsub := Finset.sdiff_subset_sdiff (Finset.Subset.refl g.store.functions)
    (h.visited_ssubset hk).subset
  refine Finset.card_lt_card ((Finset.ssubset_iff_of_subset hsub).mpr ⟨id, ?_, ?_⟩)
  · simpa using ⟨hid, hold⟩
  · simpa using fun _ => hnew

/-! ## The search without a bound -/

/-- A bound above the functions left to enter is not used up. -/
theorem enterUpTo_eq {fuel fuel' : Nat} {node : NodeId} {s : Search} (hl : left g s < fuel)
    (hl' : left g s < fuel') : enterUpTo g fuel node s = enterUpTo g fuel' node s := by
  induction fuel generalizing fuel' node s with
  | zero => omega
  | succ fuel ih =>
    obtain _ | fuel' := fuel'
    · omega
    · refine visit_congr fun next t hc => ?_
      have hless := hc.left_lt (keeps_enterUpTo g fuel')
      exact ih (by omega) (by omega)

/-- The search, nested as deep as it comes. -/
def full (g : Service) : NodeId → Search → Except GraphFault Search :=
  enterUpTo g (g.store.functionCount + 1)

theorem keeps_full (g : Service) : Keeps (full g) := keeps_enterUpTo g _

theorem visit_full (node : NodeId) (s : Search) : visit g (full g) node s = full g node s := by
  refine visit_congr fun next t hc => ?_
  have hless := hc.left_lt (keeps_enterUpTo g _)
  have hmost := left_le (g := g) s
  exact enterUpTo_eq (by omega) (by omega)

/-- A search that satisfies the equation is this one. -/
theorem eq_full {enter : NodeId → Search → Except GraphFault Search}
    (he : ∀ node s, enter node s = visit g enter node s) (node : NodeId) (s : Search) :
    enter node s = full g node s := by
  -- On the number of functions left to enter.
  induction hm : left g s using Nat.strong_induction_on generalizing node s with
  | _ m ih =>
    calc enter node s
      _ = visit g enter node s := he node s
      _ = visit g (full g) node s :=
        visit_congr fun next t hc => ih _ (hm ▸ hc.left_lt (keeps_full g)) next t rfl
      _ = full g node s := visit_full node s

theorem reach_eq_full (node : NodeId) : g.reach node = (full g node {}).map Search.verdict := by
  have hmost := left_le (g := g) {}
  have hcount : g.store.functionCount ≤ g.store.nodeCount := Store.functionCount_le
  have hfull : enterUpTo g (g.store.nodeCount + 1) node {} = full g node {} :=
    enterUpTo_eq (by omega) (by omega)
  rw [Service.reach, hfull]
  rfl

/-- Searches inside one another are no more than the functions left to the first. -/
theorem length_le_left {node : NodeId} {s : Search} {calls : List (NodeId × Search)}
    (h : List.IsChain (Calls g (full g)) ((node, s) :: calls)) : calls.length ≤ left g s := by
  induction calls generalizing node s with
  | nil => exact Nat.zero_le _
  | cons call calls ih =>
    obtain ⟨node', s'⟩ := call
    obtain ⟨hc, h⟩ := List.isChain_cons_cons.mp h
    have hless := hc.left_lt (keeps_full g)
    have hrest := ih h
    simp only [List.length_cons]
    omega

theorem isChain_visited {calls : List (NodeId × Search)}
    (h : List.IsChain (Calls g (full g)) calls) :
    List.IsChain (fun call call' => call.2.visited.toFinset ⊂ call'.2.visited.toFinset) calls :=
  h.imp fun _ _ hc => hc.visited_ssubset (keeps_full g)

end Search

namespace Service

/-- **The search for what runs a node ends.** In an acyclic tree the way up from a node ends at the
root by itself, under any bound above the number of nodes. The search has one solution, which asks
for nothing but the searches that it makes; and of searches made inside one another, through
registrations as well, each has entered more functions than the one around it, so they lie no deeper
than there are functions, and one more. -/
theorem reach_ends (g : Service) (ha : g.store.AstAcyclic) :
    (∀ id fuel, g.store.nodeCount < fuel → g.lineageUpTo fuel id = g.lineage id) ∧
    (∀ enter, (∀ node s, enter node s = Search.visit g enter node s) ↔ enter = Search.full g) ∧
    (∀ enter node s,
      (∀ next t, Search.Calls g (Search.full g) (node, s) (next, t) →
        enter next t = Search.full g next t) →
      Search.visit g enter node s = Search.full g node s) ∧
    ∀ node, g.reach node = (Search.full g node {}).map Search.verdict ∧
      ∀ calls, List.IsChain (Search.Calls g (Search.full g)) ((node, {}) :: calls) →
        List.IsChain (fun call call' => call.2.visited.toFinset ⊂ call'.2.visited.toFinset)
          ((node, {}) :: calls) ∧
        ((node, {}) :: calls).length ≤ g.store.functionCount + 1 := by
  refine ⟨?_, ?_, ?_, ?_⟩
  · intro id fuel hl
    exact Climbed.start.lineageUpTo_eq ha (by simpa using hl) (by simp)
  · intro enter
    refine ⟨fun he => funext fun node => funext (Search.eq_full he node), ?_⟩
    rintro rfl node s
    exact (Search.visit_full node s).symm
  · intro enter node s h
    exact (Search.visit_congr h).trans (Search.visit_full node s)
  · refine fun node => ⟨Search.reach_eq_full node, fun calls hc => ?_⟩
    refine ⟨Search.isChain_visited hc, Nat.succ_le_succ ?_⟩
    exact (Search.length_le_left hc).trans (Search.left_le {})

/-- Two functions, `ping` and `pong`, that call and register each other and that nothing else
runs. -/
def knotPage : Store :=
  .ofLists
    [{ id := 1, type := .program },
     { id := 2, type := .functionDeclaration }, { id := 3, type := .identifier, code := "ping" },
     { id := 4, type := .blockStatement }, { id := 5, type := .expressionStatement },
     { id := 6, type := .callExpression }, { id := 7, type := .identifier, code := "pong" },
     { id := 8, type := .functionDeclaration }, { id := 9, type := .identifier, code := "pong" },
     { id := 10, type := .blockStatement }, { id := 11, type := .expressionStatement },
     { id := 12, type := .callExpression }, { id := 13, type := .identifier, code := "ping" },
     { id := 14, type := .expressionStatement }, { id := 15, type := .callExpression },
     { id := 16, type := .identifier, code := "onClick" },
     { id := 17, type := .identifier, code := "pong" },
     { id := 18, type := .expressionStatement }, { id := 19, type := .callExpression },
     { id := 20, type := .identifier, code := "onClick" },
     { id := 21, type := .identifier, code := "ping" }]
    [{ source := 1, target := 2, relation := .ast, relationType := "body" },
     { source := 2, target := 3, relation := .ast, relationType := "id" },
     { source := 2, target := 4, relation := .ast, relationType := "body" },
     { source := 4, target := 5, relation := .ast, relationType := "body" },
     { source := 5, target := 6, relation := .ast, relationType := "expression" },
     { source := 6, target := 7, relation := .ast, relationType := "callee" },
     { source := 4, target := 14, relation := .ast, relationType := "body" },
     { source := 14, target := 15, relation := .ast, relationType := "expression" },
     { source := 15, target := 16, relation := .ast, relationType := "callee" },
     { source := 15, target := 17, relation := .ast, relationType := "arguments" },
     { source := 1, target := 8, relation := .ast, relationType := "body" },
     { source := 8, target := 9, relation := .ast, relationType := "id" },
     { source := 8, target := 10, relation := .ast, relationType := "body" },
     { source := 10, target := 11, relation := .ast, relationType := "body" },
     { source := 11, target := 12, relation := .ast, relationType := "expression" },
     { source := 12, target := 13, relation := .ast, relationType := "callee" },
     { source := 10, target := 18, relation := .ast, relationType := "body" },
     { source := 18, target := 19, relation := .ast, relationType := "expression" },
     { source := 19, target := 20, relation := .ast, relationType := "callee" },
     { source := 19, target := 21, relation := .ast, relationType := "arguments" },
     { source := 6, target := 8, relation := .cg },
     { source := 12, target := 2, relation := .cg },
     { source := 15, target := 8, relation := .erdg }]

/-- The search from the call of `pong` goes to the call of `ping`, and from there looks into the
registration of `pong`: as deep as two functions allow. -/
theorem reach_ends_knotPage :
    knotPage.AstAcyclic ∧ knotPage.functionCount = 2 ∧
    knotPage.service.reach 5 = .ok .unreachable ∧
    List.IsChain (Search.Calls knotPage.service (Search.full knotPage.service))
      [(5, {}), (12, { visited := [2] }), (15, { visited := [8, 2] })] ∧
    List.IsChain (fun call call' : NodeId × Search =>
        call.2.visited.toFinset ⊂ call'.2.visited.toFinset)
      [(5, {}), (12, { visited := [2] }), (15, { visited := [8, 2] })] ∧
    3 ≤ knotPage.functionCount + 1 := by
  have ha : knotPage.AstAcyclic := Store.astAcyclic_of_lt (by decide +kernel)
  have hping : knotPage.service.enclosingFunction? 5 =
        .ok (some { id := 2, type := .functionDeclaration }) ∧
      (knotPage.service.steps { id := 2, type := .functionDeclaration }).1 =
        [] ++ .direct 12 :: [.registration 19] := by decide +kernel
  have hpong : knotPage.service.enclosingFunction? 12 =
        .ok (some { id := 8, type := .functionDeclaration }) ∧
      (knotPage.service.steps { id := 8, type := .functionDeclaration }).1 =
        [] ++ .registration 15 :: [.direct 6, .registration 15] := by decide +kernel
  have hcalls : List.IsChain (Search.Calls knotPage.service (Search.full knotPage.service))
      [(5, {}), (12, { visited := [2] }), (15, { visited := [8, 2] })] := by
    refine .cons_cons ?_ (.cons_cons ?_ (.singleton _))
    · exact .direct rfl hping.1 (by simp) hping.2 rfl
    · exact .registration rfl hpong.1 (by simp) hpong.2 rfl rfl
  exact ⟨ha, by decide +kernel, by decide +kernel, hcalls,
    ((reach_ends knotPage.service ha).2.2.2 5).2 _ hcalls⟩

end Service

end RequestFlow

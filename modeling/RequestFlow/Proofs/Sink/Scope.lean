/-
Scans within a scope. A sink is recognised at its own node, whatever else the
scan looks at; but of settings objects inside one another only the innermost
counts, and there a scan compares no others than those it wants. So a scope
keeps what it wants of the scan of the whole program, in order, and shows one
kind of sink beyond that: a settings object around others, of which it wants
none.
-/
import Mathlib.Data.List.Nodup
import RequestFlow.Proofs.Graph.Tree
import RequestFlow.Proofs.Sink

namespace RequestFlow

namespace SinkFamily

theorem mem_all (family : SinkFamily) : family ∈ all := by
  cases family <;> decide

theorem eq_of_index {a b : SinkFamily} (h : a.index = b.index) : a = b :=
  (List.idxOf_inj (mem_all a)).mp h

end SinkFamily

namespace Sink

/-- The order of reports, strictly: by node, then by family. -/
def Before (a b : Sink) : Prop :=
  a.node.id < b.node.id ∨ a.node.id = b.node.id ∧ a.family.index < b.family.index

theorem le_iff {a b : Sink} : a.le b = true ↔
    a.node.id < b.node.id ∨ a.node.id = b.node.id ∧ a.family.index ≤ b.family.index := by
  simp [le]

theorem same_iff {a b : Sink} :
    a.same b = true ↔ a.node.id = b.node.id ∧ a.family = b.family := by
  simp [same]

theorem Before.asymm {a b : Sink} (hab : a.Before b) : ¬ b.Before a := by
  unfold Before at hab ⊢
  lia

/-- Reports put in order and freed of repetitions increase. -/
theorem pairwise_before (sinks : List Sink) :
    (dedupNext same (sortBy le sinks)).Pairwise Before := by
  refine pairwise_dedupNext ?_ ?_ (pairwise_sortBy ?_ ?_ sinks)
  · intro a b hle hsame
    refine (le_iff.mp hle).imp_right fun ⟨hid, hindex⟩ => ⟨hid, Nat.lt_of_le_of_ne hindex ?_⟩
    intro heq
    rw [same_iff.mpr ⟨hid.symm, SinkFamily.eq_of_index heq.symm⟩] at hsame
    cases hsame
  · intro a b c hab hbc
    rw [le_iff] at hbc
    unfold Before at hab ⊢
    lia
  · intro a b
    rw [le_iff, le_iff]
    lia
  · intro a b c hab hbc
    rw [le_iff] at hab hbc ⊢
    lia

/-- The sinks that one node is: of different families, none a settings object. -/
structure OfNode (node : Node) (sinks : List Sink) : Prop where
  node : ∀ sink ∈ sinks, sink.node = node
  families : (sinks.map (·.family)).Nodup
  settings : .ajaxSettings ∉ sinks.map (·.family)

theorem ofNode_nil {node : Node} : OfNode node [] := ⟨by simp, by simp, by simp⟩

theorem ofNode_at? {family : SinkFamily} {node : Node} {argument : Option Node}
    (hf : family ≠ .ajaxSettings) : OfNode node (at? family node argument) := by
  cases argument with
  | none => exact ofNode_nil
  | some argument => exact ⟨by simp [at?], by simp [at?], by simpa [at?] using hf.symm⟩

theorem OfNode.eq {node : Node} {sinks : List Sink} (h : OfNode node sinks) {a b : Sink}
    (ha : a ∈ sinks) (hb : b ∈ sinks) (hf : a.family = b.family) : a = b :=
  List.inj_on_of_nodup_map h.families ha hb hf

end Sink

namespace Service

variable {g : Service}

/-! ## The sinks of a node -/

theorem ajaxSinks_ofNode {call : Node} {settings : Option Node} {sinks : List Sink}
    (h : g.ajaxSinks call settings = .ok sinks) : Sink.OfNode call sinks := by
  cases settings with
  | none => cases h; exact Sink.ofNode_nil
  | some settings =>
    simp only [ajaxSinks] at h
    split at h
    · obtain ⟨url, -, h⟩ := exists_of_bind h
      obtain ⟨data, -, h⟩ := exists_of_bind h
      obtain ⟨headers, -, h⟩ := exists_of_bind h
      cases h
      cases data <;> cases headers <;> constructor <;> simp [Sink.at?]
    · cases h; exact Sink.ofNode_at? (by decide)

theorem constructionSinks_ofNode {call callee : Node} {args : List Node} {sinks : List Sink}
    (h : g.constructionSinks call callee args = .ok sinks) : Sink.OfNode call sinks := by
  unfold constructionSinks at h
  extract_lets finish at h
  have hfinish : ∀ name, finish name = .ok sinks → Sink.OfNode call sinks := by
    intro name h
    cases h
    split
    · exact Sink.ofNode_at? nofun
    · exact Sink.ofNode_at? nofun
    · exact Sink.ofNode_nil
  split at h
  · exact hfinish _ h
  · obtain ⟨name, -, h⟩ := exists_of_bind h
    exact hfinish name h

theorem methodSinks_ofNode {call : Node} {args : List Node} {method receiver : String}
    {sinks : List Sink} (h : g.methodSinks call args method receiver = .ok sinks) :
    Sink.OfNode call sinks := by
  have hif : ∀ {p : Prop} [Decidable p] {l l' : List Sink}, Sink.OfNode call l →
      Sink.OfNode call l' → Sink.OfNode call (if p then l else l') := by
    intro p _ l l' hl hl'
    split
    · exact hl
    · exact hl'
  unfold methodSinks at h
  split at h
  · cases h; exact hif (Sink.ofNode_at? nofun) (Sink.ofNode_at? nofun)
  · cases h; exact hif (Sink.ofNode_at? nofun) Sink.ofNode_nil
  · exact ajaxSinks_ofNode h
  · cases h; exact Sink.ofNode_at? nofun
  · cases h; exact Sink.ofNode_at? nofun
  · cases h; exact hif (Sink.ofNode_at? nofun) Sink.ofNode_nil
  · cases h; exact hif Sink.ofNode_nil (Sink.ofNode_at? nofun)
  · cases h; exact Sink.ofNode_at? nofun
  · cases h; exact Sink.ofNode_nil

theorem invocationSinks_ofNode {call : Node} {sinks : List Sink}
    (h : g.invocationSinks call = .ok sinks) : Sink.OfNode call sinks := by
  obtain ⟨callee, -, h⟩ := exists_of_bind h
  split at h
  · cases h; exact Sink.ofNode_nil
  obtain ⟨args, -, h⟩ := exists_of_bind h
  split at h
  · exact constructionSinks_ofNode h
  split at h
  · cases h
    split
    · exact Sink.ofNode_at? nofun
    · exact Sink.ofNode_at? nofun
    · exact Sink.ofNode_nil
  obtain ⟨method, -, h⟩ := exists_of_bind h
  split at h
  · cases h; exact Sink.ofNode_nil
  obtain ⟨object, -, h⟩ := exists_of_bind h
  split at h
  · obtain ⟨rendered, -, h⟩ := exists_of_bind h
    exact methodSinks_ofNode h
  · exact methodSinks_ofNode h

theorem assignmentSinks_ofNode {assignment : Node} {sinks : List Sink}
    (h : g.assignmentSinks assignment = .ok sinks) : Sink.OfNode assignment sinks := by
  obtain ⟨left, -, h⟩ := exists_of_bind h
  split at h
  · cases h; exact Sink.ofNode_nil
  obtain ⟨right, -, h⟩ := exists_of_bind h
  obtain ⟨rendered, -, h⟩ := exists_of_bind h
  extract_lets target at h
  split at h
  · cases h; exact Sink.ofNode_at? nofun
  obtain ⟨name, -, h⟩ := exists_of_bind h
  split at h
  · cases h; exact Sink.ofNode_at? nofun
  · cases h; exact Sink.ofNode_nil

/-- What a node is by itself. -/
def ownSinks (g : Service) (node : Node) : Except GraphFault (List Sink) :=
  match node.type with
  | .callExpression | .newExpression => g.invocationSinks node
  | .assignmentExpression => g.assignmentSinks node
  | _ => .ok []

theorem ownSinks_ofNode {node : Node} {sinks : List Sink} (h : g.ownSinks node = .ok sinks) :
    Sink.OfNode node sinks := by
  unfold ownSinks at h
  split at h
  · exact invocationSinks_ofNode h
  · exact invocationSinks_ofNode h
  · exact assignmentSinks_ofNode h
  · cases h; exact Sink.ofNode_nil

/-- A sink that its node is by itself. -/
structure IsOwn (g : Service) (sink : Sink) : Prop where
  held : g.store.Holds sink.node
  own : ∃ sinks, g.ownSinks sink.node = .ok sinks ∧ sink ∈ sinks

theorem IsOwn.family_ne {sink : Sink} (h : g.IsOwn sink) : sink.family ≠ .ajaxSettings := by
  obtain ⟨sinks, hsinks, hm⟩ := h.own
  intro hf
  exact (ownSinks_ofNode hsinks).settings (hf ▸ List.mem_map_of_mem hm)

theorem IsOwn.kind {sink : Sink} (h : g.IsOwn sink) :
    sink.node.type = .callExpression ∨ sink.node.type = .newExpression ∨
      sink.node.type = .assignmentExpression := by
  obtain ⟨sinks, hsinks, hm⟩ := h.own
  unfold ownSinks at hsinks
  split at hsinks
  · next ht => exact .inl ht
  · next ht => exact .inr (.inl ht)
  · next ht => exact .inr (.inr ht)
  · cases hsinks; cases hm

theorem mem_ofType {type : NodeType} {nodes : List Node} (h : g.ofType type = .ok nodes)
    {node : Node} : node ∈ nodes ↔ g.store.Holds node ∧ node.type = type := by
  unfold ofType matching ask at h
  split at h
  · cases h
  · cases h
    rw [Store.mem_matching, NodePattern.matches_iff]
    simp [eq_comm]

/-- The own sinks of the nodes of one kind that the scope wants. -/
theorem mem_own {scope : SinkScope} {type : NodeType} {nodes : List Node}
    {find : Node → Except GraphFault (List Sink)} {lists : List (List Sink)}
    (hfind : ∀ node, node.type = type → g.ownSinks node = find node)
    (hn : g.ofType type = .ok nodes) (hl : (nodes.filter scope.wants).mapM find = .ok lists)
    {sink : Sink} :
    sink ∈ lists.flatten ↔ sink.node.type = type ∧ scope.wants sink.node = true ∧ g.IsOwn sink := by
  rw [List.mem_flatten]
  constructor
  · rintro ⟨sinks, hm, hs⟩
    obtain ⟨node, hnode, hsinks⟩ := (mem_mapM hl).mp hm
    obtain ⟨hnode, hw⟩ := List.mem_filter.mp hnode
    obtain ⟨hheld, ht⟩ := (mem_ofType hn).mp hnode
    rw [← hfind node ht] at hsinks
    obtain rfl := (ownSinks_ofNode hsinks).node sink hs
    exact ⟨ht, hw, hheld, sinks, hsinks, hs⟩
  · rintro ⟨ht, hw, hheld, sinks, hsinks, hs⟩
    refine ⟨sinks, (mem_mapM hl).mpr ⟨sink.node, ?_, ?_⟩, hs⟩
    · exact List.mem_filter.mpr ⟨(mem_ofType hn).mpr ⟨hheld, ht⟩, hw⟩
    · rw [← hfind sink.node ht, hsinks]

/-! ## Settings objects -/

/-- An object literal that is stored under the name of settings and has a url. -/
structure IsSettings (g : Service) (object url : Node) : Prop where
  held : g.store.Holds object
  kind : object.type = .objectExpression
  stored : g.isAjaxSettings object = .ok true
  url : g.propertyValue? object "url" = .ok (some url)

/-- A settings object, with no other inside it that the scope wants. -/
structure IsInnermost (g : Service) (scope : SinkScope) (sink : Sink) : Prop where
  family : sink.family = .ajaxSettings
  settings : g.IsSettings sink.node sink.argument
  innermost : ∀ inner url, g.IsSettings inner url → scope.wants inner = true →
    ¬ g.Below inner.id sink.node.id

theorem exists_mem_settingsOf {scope : SinkScope} {object object' url : Node} :
    (∃ pairs, g.settingsOf scope object = .ok pairs ∧ (object', url) ∈ pairs) ↔
      object' = object ∧ scope.wants object = true ∧ g.isAjaxSettings object = .ok true ∧
        g.propertyValue? object "url" = .ok (some url) := by
  unfold settingsOf
  constructor
  · rintro ⟨pairs, h, hm⟩
    split at h
    · next hw =>
      obtain ⟨stored, hstored, h⟩ := exists_of_bind h
      split at h
      · next hs =>
        obtain ⟨found, hfound, h⟩ := exists_of_bind h
        cases h
        rw [Option.mem_toList, Option.map_eq_some_iff] at hm
        obtain ⟨url, rfl, hpair⟩ := hm
        cases hpair
        exact ⟨rfl, hw, hs ▸ hstored, hfound⟩
      · cases h; cases hm
    · cases h; cases hm
  · rintro ⟨rfl, hw, hstored, hurl⟩
    rw [if_pos hw, hstored, hurl]
    exact ⟨_, rfl, List.mem_singleton_self _⟩

theorem holdsAny_iff (ha : g.store.AstAcyclic) {object : Node} {ids : List NodeId} {b : Bool}
    (h : g.holdsAny object ids = .ok b) : b = true ↔ ∃ id ∈ ids, g.Below id object.id := by
  induction ids with
  | nil => cases h; simp
  | cons other rest ih =>
    simp only [holdsAny] at h
    rw [List.exists_mem_cons_iff]
    split at h
    · obtain ⟨below, hbelow, h⟩ := exists_of_bind h
      rw [← isBelow_iff ha hbelow]
      split at h
      · next hb => cases h; simp [hb]
      · next hb => rw [ih h]; simp [hb]
    · next heq =>
      -- No object lies inside itself.
      obtain rfl : other = object.id := by simpa using heq
      rw [ih h, or_iff_right fun hb => ha _ hb.transGen]

/-- The settings objects that a scan compares. -/
theorem mem_found {scope : SinkScope} {objects : List Node} {lists : List (List (Node × Node))}
    (hobjects : g.ofType .objectExpression = .ok objects)
    (hlists : objects.mapM (g.settingsOf scope) = .ok lists) {object url : Node} :
    (object, url) ∈ lists.flatten ↔ scope.wants object = true ∧ g.IsSettings object url := by
  rw [List.mem_flatten]
  constructor
  · rintro ⟨pairs, hm, hp⟩
    obtain ⟨object', hobject, hpairs⟩ := (mem_mapM hlists).mp hm
    obtain ⟨rfl, hw, hstored, hurl⟩ := exists_mem_settingsOf.mp ⟨pairs, hpairs, hp⟩
    obtain ⟨hheld, hkind⟩ := (mem_ofType hobjects).mp hobject
    exact ⟨hw, hheld, hkind, hstored, hurl⟩
  · rintro ⟨hw, hs⟩
    obtain ⟨pairs, hpairs, hp⟩ := exists_mem_settingsOf.mpr ⟨rfl, hw, hs.stored, hs.url⟩
    have hobject := (mem_ofType hobjects).mpr ⟨hs.held, hs.kind⟩
    exact ⟨pairs, (mem_mapM hlists).mpr ⟨object, hobject, hpairs⟩, hp⟩

theorem mem_settingsSinks (ha : g.store.AstAcyclic) {scope : SinkScope} {sinks : List Sink}
    (h : g.settingsSinks scope = .ok sinks) {sink : Sink} :
    sink ∈ sinks ↔ scope.wants sink.node = true ∧ g.IsInnermost scope sink := by
  obtain ⟨objects, hobjects, h⟩ := exists_of_bind h
  obtain ⟨lists, hlists, h⟩ := exists_of_bind h
  extract_lets found ids at h
  obtain ⟨sinks', hsinks, h⟩ := exists_of_bind h
  cases h
  have hfound : ∀ object url, (object, url) ∈ found ↔
      scope.wants object = true ∧ g.IsSettings object url := fun _ _ => mem_found hobjects hlists
  -- What lies inside an object, among those compared.
  have hinner : ∀ object : Node, (∃ id ∈ ids, g.Below id object.id) ↔
      ∃ inner url, scope.wants inner = true ∧ g.IsSettings inner url ∧
        g.Below inner.id object.id := by
    intro object
    constructor
    · rintro ⟨id, hid, hb⟩
      obtain ⟨⟨inner, url⟩, hm, rfl⟩ := List.mem_map.mp hid
      obtain ⟨hw, hs⟩ := (hfound inner url).mp hm
      exact ⟨inner, url, hw, hs, hb⟩
    · rintro ⟨inner, url, hw, hs, hb⟩
      exact ⟨inner.id, List.mem_map.mpr ⟨(inner, url), (hfound inner url).mpr ⟨hw, hs⟩, rfl⟩, hb⟩
  rw [List.mem_flatten]
  constructor
  · rintro ⟨list, hm, hs⟩
    obtain ⟨⟨object, url⟩, hpair, hlist⟩ := (mem_mapM hsinks).mp hm
    obtain ⟨holds, hholds, hlist⟩ := exists_of_bind hlist
    split at hlist
    · cases hlist; cases hs
    · next hnone =>
      cases hlist
      obtain rfl := List.mem_singleton.mp hs
      obtain ⟨hw, hset⟩ := (hfound object url).mp hpair
      refine ⟨hw, rfl, hset, fun inner url' hinner' hw' hb => hnone ?_⟩
      rw [holdsAny_iff ha hholds, hinner]
      exact ⟨inner, url', hw', hinner', hb⟩
  · rintro ⟨hw, hsink⟩
    obtain ⟨i, hi⟩ := List.mem_iff_getElem?.mp ((hfound _ _).mpr ⟨hw, hsink.settings⟩)
    obtain ⟨list, hlist, hrun⟩ := getElem?_mapM hsinks hi
    refine ⟨list, List.mem_of_getElem? hlist, ?_⟩
    obtain ⟨holds, hholds, hrun⟩ := exists_of_bind hrun
    have hnone : ¬ holds = true := by
      rw [holdsAny_iff ha hholds, hinner]
      rintro ⟨inner, url, hw', hinner', hb⟩
      exact hsink.innermost inner url hinner' hw' hb
    rw [if_neg hnone] at hrun
    cases hrun
    rw [← hsink.family]
    exact List.mem_singleton_self _

/-! ## Scans -/

/-- A sink that the scope wants, by itself or as the innermost of the settings objects wanted. -/
def Recognises (g : Service) (scope : SinkScope) (sink : Sink) : Prop :=
  scope.wants sink.node = true ∧ (g.IsOwn sink ∨ g.IsInnermost scope sink)

/-- A node has one sink of a family. -/
theorem Recognises.eq {scope : SinkScope} {a b : Sink} (ha : g.Recognises scope a)
    (hb : g.Recognises scope b) (hid : a.node.id = b.node.id) (hf : a.family = b.family) :
    a = b := by
  obtain ⟨-, ha | ha⟩ := ha <;> obtain ⟨-, hb | hb⟩ := hb
  · have hnode : a.node = b.node := ha.held.eq hb.held hid
    obtain ⟨sinks, hsinks, hma⟩ := ha.own
    obtain ⟨sinks', hsinks', hmb⟩ := hb.own
    rw [hnode, hsinks'] at hsinks
    cases hsinks
    exact (ownSinks_ofNode hsinks').eq hma hmb hf
  · exact absurd (hf.trans hb.family) ha.family_ne
  · exact absurd (hf.symm.trans ha.family) hb.family_ne
  · have hnode : a.node = b.node := ha.settings.held.eq hb.settings.held hid
    have hurl := ha.settings.url
    rw [hnode, hb.settings.url] at hurl
    cases a
    cases b
    cases hnode
    cases hf
    cases hurl
    rfl

/-- What a scan finds: the enabled sinks that its scope recognises, in order. -/
theorem sinks_spec (ha : g.store.AstAcyclic) {scope : SinkScope} {found : List Sink}
    (h : g.sinks scope = .ok found) :
    found.Pairwise Sink.Before ∧
      ∀ sink, sink ∈ found ↔ sink.family ∉ scope.disabled ∧ g.Recognises scope sink := by
  obtain ⟨calls, hcalls, h⟩ := exists_of_bind h
  obtain ⟨callSinks, hcallSinks, h⟩ := exists_of_bind h
  obtain ⟨news, hnews, h⟩ := exists_of_bind h
  obtain ⟨newSinks, hnewSinks, h⟩ := exists_of_bind h
  obtain ⟨sets, hsets, h⟩ := exists_of_bind h
  obtain ⟨setSinks, hsetSinks, h⟩ := exists_of_bind h
  obtain ⟨settings, hsettings, h⟩ := exists_of_bind h
  extract_lets all enabled at h
  cases h
  have hall : ∀ sink, sink ∈ all ↔ g.Recognises scope sink := by
    intro sink
    simp only [all, List.mem_append]
    rw [mem_own (fun node ht => by rw [ownSinks, ht]) hcalls hcallSinks,
      mem_own (fun node ht => by rw [ownSinks, ht]) hnews hnewSinks,
      mem_own (fun node ht => by rw [ownSinks, ht]) hsets hsetSinks, mem_settingsSinks ha hsettings]
    constructor
    · rintro (((⟨-, hw, hown⟩ | ⟨-, hw, hown⟩) | ⟨-, hw, hown⟩) | ⟨hw, hinner⟩)
      · exact ⟨hw, .inl hown⟩
      · exact ⟨hw, .inl hown⟩
      · exact ⟨hw, .inl hown⟩
      · exact ⟨hw, .inr hinner⟩
    · rintro ⟨hw, hown | hinner⟩
      · rcases hown.kind with ht | ht | ht
        · exact .inl (.inl (.inl ⟨ht, hw, hown⟩))
        · exact .inl (.inl (.inr ⟨ht, hw, hown⟩))
        · exact .inl (.inr ⟨ht, hw, hown⟩)
      · exact .inr ⟨hw, hinner⟩
  have henabled : ∀ sink, sink ∈ enabled ↔
      sink.family ∉ scope.disabled ∧ g.Recognises scope sink := by
    intro sink
    rw [List.mem_filter, hall, and_comm]
    simp
  refine ⟨Sink.pairwise_before enabled, fun sink => ?_⟩
  rw [mem_dedupNext, mem_sortBy, henabled]
  intro a ha' b hb' hsame
  obtain ⟨hid, hf⟩ := Sink.same_iff.mp hsame
  exact ((henabled a).mp (mem_sortBy.mp ha')).2.eq ((henabled b).mp (mem_sortBy.mp hb')).2 hid hf

/-- A settings object around others, of which the scope wants none. -/
structure Uncovers (g : Service) (scope : SinkScope) (sink : Sink) : Prop where
  family : sink.family = .ajaxSettings
  settings : g.IsSettings sink.node sink.argument
  wanted : scope.wants sink.node = true
  around : ∃ inner url, g.IsSettings inner url ∧ g.Below inner.id sink.node.id
  unwanted : ∀ inner url, g.IsSettings inner url → g.Below inner.id sink.node.id →
    scope.wants inner = false

/-- What a scope recognises, against what is recognised without one. -/
theorem recognises_iff {scope : SinkScope} {sink : Sink} :
    g.Recognises scope sink ↔
      scope.wants sink.node = true ∧ g.Recognises {} sink ∨ g.Uncovers scope sink := by
  constructor
  · rintro ⟨hw, hown | hinner⟩
    · exact .inl ⟨hw, rfl, .inl hown⟩
    · by_cases haround : ∃ inner url, g.IsSettings inner url ∧ g.Below inner.id sink.node.id
      · refine .inr ⟨hinner.family, hinner.settings, hw, haround, fun inner url hs hb => ?_⟩
        by_contra hwanted
        exact hinner.innermost inner url hs (by simpa using hwanted) hb
      · refine .inl ⟨hw, rfl, .inr ⟨hinner.family, hinner.settings, fun inner url hs _ hb => ?_⟩⟩
        exact haround ⟨inner, url, hs, hb⟩
  · rintro (⟨hw, -, hown | hinner⟩ | hunder)
    · exact ⟨hw, .inl hown⟩
    · refine ⟨hw, .inr ⟨hinner.family, hinner.settings, fun inner url hs _ hb => ?_⟩⟩
      exact hinner.innermost inner url hs rfl hb
    · refine ⟨hunder.wanted, .inr ⟨hunder.family, hunder.settings, fun inner url hs hw hb => ?_⟩⟩
      rw [hunder.unwanted inner url hs hb] at hw
      cases hw

/-- What a scope uncovers is not recognised without one. -/
theorem Uncovers.not_recognises {scope : SinkScope} {sink : Sink} (h : g.Uncovers scope sink) :
    ¬ g.Recognises {} sink := by
  rintro ⟨-, hown | hinner⟩
  · exact hown.family_ne h.family
  · obtain ⟨inner, url, hs, hb⟩ := h.around
    exact hinner.innermost inner url hs rfl hb

/-- Without a restriction nothing is uncovered. -/
theorem not_uncovers {scope : SinkScope} (h : scope.only = none) (sink : Sink) :
    ¬ g.Uncovers scope sink := by
  intro hunder
  obtain ⟨inner, url, hs, hb⟩ := hunder.around
  have hw := hunder.unwanted inner url hs hb
  simp [SinkScope.wants, h] at hw

end Service

/-- **A scan within a scope, against the scan of the whole program.** Both give each sink once, in
strict order. The scope keeps of the whole what is enabled and wanted, and beyond that shows what it
uncovers: so it filters the whole exactly when settings objects are disabled or none is uncovered,
as none is without a restriction. -/
theorem Store.sinks_scope (store : Store) (hc : store.Closed) (ha : store.AstAcyclic)
    (scope : SinkScope) :
    ∃ whole found, store.service.sinks {} = .ok whole ∧ store.service.sinks scope = .ok found ∧
      whole.Pairwise Sink.Before ∧ found.Pairwise Sink.Before ∧
      (∀ sink, sink ∈ found ↔ sink.family ∉ scope.disabled ∧
        (scope.wants sink.node = true ∧ sink ∈ whole ∨ store.service.Uncovers scope sink)) ∧
      (found = whole.filter (fun sink =>
          sink.family ∉ scope.disabled ∧ scope.wants sink.node = true) ↔
        .ajaxSettings ∈ scope.disabled ∨ ∀ sink, ¬ store.service.Uncovers scope sink) ∧
      (scope.only = none → ∀ sink, ¬ store.service.Uncovers scope sink) := by
  have hrun : ∀ scope, ∃ found, store.service.sinks scope = .ok found := fun scope =>
    (Service.sinks_agree (.of_closed hc) scope).exists_ok.imp fun _ h => h.1
  obtain ⟨whole, hwhole⟩ := hrun {}
  obtain ⟨found, hfound⟩ := hrun scope
  obtain ⟨hwholeOrder, hmemWhole⟩ := Service.sinks_spec ha hwhole
  obtain ⟨hfoundOrder, hmemFound⟩ := Service.sinks_spec ha hfound
  have hwholeIff : ∀ sink, sink ∈ whole ↔ store.service.Recognises {} sink := fun sink =>
    (hmemWhole sink).trans (and_iff_right List.not_mem_nil)
  have hmem : ∀ sink, sink ∈ found ↔ sink.family ∉ scope.disabled ∧
      (scope.wants sink.node = true ∧ sink ∈ whole ∨ store.service.Uncovers scope sink) := by
    intro sink
    rw [hmemFound, hwholeIff, Service.recognises_iff]
  refine ⟨whole, found, hwhole, hfound, hwholeOrder, hfoundOrder, hmem, ⟨?_, ?_⟩,
    Service.not_uncovers⟩
  · intro heq
    by_cases hd : .ajaxSettings ∈ scope.disabled
    · exact .inl hd
    · refine .inr fun sink hunder => hunder.not_recognises ((hwholeIff sink).mp ?_)
      have hin : sink ∈ found := (hmem sink).mpr ⟨hunder.family ▸ hd, .inr hunder⟩
      exact (List.mem_filter.mp (heq ▸ hin)).1
  · intro hnone
    refine eq_of_pairwise (fun _ _ => Sink.Before.asymm) hfoundOrder (hwholeOrder.filter _) ?_
    intro sink
    rw [hmem, List.mem_filter]
    have hunder : sink.family ∉ scope.disabled → ¬ store.service.Uncovers scope sink :=
      fun hd hunder => hnone.elim (fun h => hd (hunder.family ▸ h)) (· sink hunder)
    constructor
    · rintro ⟨hd, ⟨hw, hin⟩ | h⟩
      · exact ⟨hin, by simpa using ⟨hd, hw⟩⟩
      · exact absurd h (hunder hd)
    · rintro ⟨hin, hkept⟩
      obtain ⟨hd, hw⟩ := of_decide_eq_true hkept
      exact ⟨hd, .inl ⟨hw, hin⟩⟩

/-- The page `Ext.ajaxSettings = { url: near, ajaxSettings: { url: far } }; fetch(target)`. -/
def nestedPage : Store :=
  .ofLists
    [{ id := 1, type := .program }, { id := 2, type := .expressionStatement },
     { id := 3, type := .assignmentExpression }, { id := 4, type := .memberExpression },
     { id := 5, type := .identifier, code := "Ext" },
     { id := 6, type := .identifier, code := "ajaxSettings" },
     { id := 7, type := .objectExpression },
     { id := 8, type := .property }, { id := 9, type := .identifier, code := "url" },
     { id := 10, type := .identifier, code := "near" },
     { id := 11, type := .property }, { id := 12, type := .identifier, code := "ajaxSettings" },
     { id := 13, type := .objectExpression },
     { id := 14, type := .property }, { id := 15, type := .identifier, code := "url" },
     { id := 16, type := .identifier, code := "far" },
     { id := 17, type := .expressionStatement }, { id := 18, type := .callExpression },
     { id := 19, type := .identifier, code := "fetch" },
     { id := 20, type := .identifier, code := "target" }]
    [{ source := 1, target := 2, relation := .ast, relationType := "body" },
     { source := 2, target := 3, relation := .ast, relationType := "expression" },
     { source := 3, target := 4, relation := .ast, relationType := "left" },
     { source := 4, target := 5, relation := .ast, relationType := "object" },
     { source := 4, target := 6, relation := .ast, relationType := "property" },
     { source := 3, target := 7, relation := .ast, relationType := "right" },
     { source := 7, target := 8, relation := .ast, relationType := "properties" },
     { source := 8, target := 9, relation := .ast, relationType := "key" },
     { source := 8, target := 10, relation := .ast, relationType := "value" },
     { source := 7, target := 11, relation := .ast, relationType := "properties" },
     { source := 11, target := 12, relation := .ast, relationType := "key" },
     { source := 11, target := 13, relation := .ast, relationType := "value" },
     { source := 13, target := 14, relation := .ast, relationType := "properties" },
     { source := 14, target := 15, relation := .ast, relationType := "key" },
     { source := 14, target := 16, relation := .ast, relationType := "value" },
     { source := 1, target := 17, relation := .ast, relationType := "body" },
     { source := 17, target := 18, relation := .ast, relationType := "expression" },
     { source := 18, target := 19, relation := .ast, relationType := "callee" },
     { source := 18, target := 20, relation := .ast, relationType := "arguments" }]

namespace nestedPage

def outer : Sink :=
  ⟨.ajaxSettings, { id := 7, type := .objectExpression },
    { id := 10, type := .identifier, code := "near" }⟩

def inner : Sink :=
  ⟨.ajaxSettings, { id := 13, type := .objectExpression },
    { id := 16, type := .identifier, code := "far" }⟩

def fetch : Sink :=
  ⟨.fetch, { id := 18, type := .callExpression },
    { id := 20, type := .identifier, code := "target" }⟩

theorem whole : nestedPage.service.sinks {} = .ok [inner, fetch] := by decide +kernel

end nestedPage

/-- A scope that wants both settings objects and the call, without calls of its family, keeps the
inner object. -/
theorem Store.sinks_scope_nestedPage :
    nestedPage.Closed ∧ nestedPage.AstAcyclic ∧
    nestedPage.service.sinks {} = .ok [nestedPage.inner, nestedPage.fetch] ∧
    nestedPage.service.sinks { disabled := [.fetch], only := some [7, 13, 18] } =
      .ok [nestedPage.inner] ∧
    [nestedPage.inner, nestedPage.fetch].Pairwise Sink.Before ∧
    ∀ sink, ¬ nestedPage.service.Uncovers { disabled := [.fetch], only := some [7, 13, 18] } sink := by
  have hc : nestedPage.Closed := by decide +kernel
  have ha : nestedPage.AstAcyclic := Store.astAcyclic_of_lt (by decide +kernel)
  have hkept : nestedPage.service.sinks { disabled := [.fetch], only := some [7, 13, 18] } =
      .ok [nestedPage.inner] := by decide +kernel
  obtain ⟨whole, found, hwhole, hfound, horder, -, -, hfilter, -⟩ :=
    Store.sinks_scope nestedPage hc ha { disabled := [.fetch], only := some [7, 13, 18] }
  rw [nestedPage.whole] at hwhole
  rw [hkept] at hfound
  cases hwhole
  cases hfound
  refine ⟨hc, ha, nestedPage.whole, hkept, horder, ?_⟩
  exact (hfilter.mp (by decide)).resolve_left (by decide)

/-- A scope that wants the outer object alone shows it, which the whole does not. -/
theorem Store.sinks_nestedPage_uncovered :
    nestedPage.Closed ∧ nestedPage.AstAcyclic ∧
    nestedPage.service.sinks {} = .ok [nestedPage.inner, nestedPage.fetch] ∧
    nestedPage.service.sinks { only := some [7] } = .ok [nestedPage.outer] ∧
    [nestedPage.inner, nestedPage.fetch].filter (fun sink =>
      SinkScope.wants { only := some [7] } sink.node) = [] := by
  refine ⟨by decide +kernel, Store.astAcyclic_of_lt (by decide +kernel), nestedPage.whole, ?_, rfl⟩
  decide +kernel

end RequestFlow

/-
A resolver over a graph on which another one has stored what it found. The
second reads what the first has computed, remembers the same occurrences of
`this` in the same order and, as long as it asks for no other, writes nothing.
-/
import RequestFlow.Proofs.Owner.Stored

namespace RequestFlow

namespace Service

variable {g h : Service}

/-- `h` has the nodes and edges of `g`, whatever counts as written after loading. -/
structure Reloads (g h : Service) : Prop where
  outage : h.outage = g.outage
  nodes : h.store.nodes = g.store.nodes
  edges : h.store.edges = g.store.edges

theorem Reloads.outgoing (hr : Reloads g h) (id : NodeId) (relation : Option Relation) :
    h.store.outgoing id relation = g.store.outgoing id relation := by
  rw [Store.outgoing_eq, Store.outgoing_eq, hr.edges]

theorem Reloads.alike (hr : Reloads g h) : Alike .same g h where
  nodes := hr.nodes.symm
  edges := by rw [Store.properEdges, Store.properEdges, hr.edges]
  asked query _ := by
    rw [ask, ask, hr.outage]
    exact .of_eq (by decide) fun _ _ => trivial
  closed := nofun

end Service

namespace Resolver

variable {mode : Mode} {keep keep' : Bool} {b b' : Service} {r r' : Resolver} {this : NodeId}

/-- The occurrences of `this` that a resolver remembers, the latest first. -/
def occurrences (r : Resolver) : List NodeId := r.known.map (·.1)

theorem mem_occurrences : this ∈ r.occurrences ↔ ∃ res, (this, res) ∈ r.known := by
  simp [occurrences]

theorem lookup_eq_none : r.known.lookup this = none ↔ this ∉ r.occurrences := by
  simp only [List.lookup_eq_none_iff, occurrences, List.mem_map, bne_iff_ne, not_exists, not_and]
  exact ⟨fun h entry hm he => h entry hm he.symm, fun h entry hm he => h entry hm he.symm⟩

theorem occurrences_resolve (hs : Sound keep b r) (hw : b.WritesAlike)
    (he : b.store.hasNode this = true) : (r.resolve keep this).2.occurrences =
      if this ∈ r.occurrences ∨ (r.resolve keep this).1.isOk = false then r.occurrences
      else this :: r.occurrences := by
  have hstep := hs.resolves hw he
  generalize (r.resolve keep this).1 = outcome at hstep ⊢
  generalize (r.resolve keep this).2 = next at hstep ⊢
  cases hstep with
  | known hm => exact (if_pos (.inl (mem_occurrences.mpr ⟨_, hm⟩))).symm
  | failed hl ho => exact (if_pos (.inr rfl)).symm
  | found hl ho hf => exact (if_neg (fun h => h.elim (lookup_eq_none.mp hl) nofun)).symm

/-! ## The run that stores -/

/-- The edges that store what is remembered, the oldest first. -/
def written (known : Resolutions) : List Edge :=
  known.reverse.flatMap fun entry => entry.2.edges entry.1

/-- The graph of a resolver is `b` with what it remembers stored, and it remembers what the tree
gives. -/
structure Wrote (b : Service) (r : Resolver) : Prop where
  grown : b.Grown r.graph (written r.known)
  distinct : r.occurrences.Nodup
  held : ∀ entry ∈ r.known, b.store.hasNode entry.1 = true
  found : ∀ entry ∈ r.known, b.computeOwners entry.1 = .ok entry.2

namespace Wrote

theorem new (b : Service) : Wrote b ⟨b, []⟩ := ⟨.refl b, List.nodup_nil, nofun, nofun⟩

theorem resolved (h : Wrote b r) {entry : NodeId × Resolution} (hm : entry ∈ r.known) :
    b.Resolved entry.2 :=
  Service.resolved_of_computeOwners (h.held entry hm) (h.found entry hm)

/-- In a tree without stored owners, resolving keeps storing all that is remembered. -/
theorem resolve (h : Wrote b r) (hb : ∀ edge ∈ b.store.edges, edge.relation ≠ .pointsTo)
    (hf : b.store.AstForest) (hw : b.WritesAlike) (hs : Sound true b r)
    (he : b.store.hasNode this = true) : Wrote b (r.resolve true this).2 := by
  have hstep := hs.resolves hw he
  generalize (r.resolve true this).1 = outcome at hstep
  generalize (r.resolve true this).2 = next at hstep ⊢
  cases hstep with
  | known hm => exact h
  | failed hl ho => exact h
  | @found res _ hl ho hfinds =>
    have hnil : r.graph.store.outgoing this (some .pointsTo) = [] :=
      (hs.unknown this hl).trans (Store.outgoing_eq_nil hb this)
    obtain ⟨hc, hg⟩ := hfinds.stores hnil
    have hcompute : b.computeOwners this = .ok res :=
      (Service.computeOwners_agree hs.alike he).eq.trans hc
    have hres := Service.resolved_of_computeOwners he hcompute
    rw [firsts_of_nodup (hres.nodup_edges hf this)] at hg
    exact {
      grown := by simpa [written] using h.grown.trans hg
      distinct := List.nodup_cons.mpr ⟨lookup_eq_none.mp hl, h.distinct⟩
      held := List.forall_mem_cons.mpr ⟨he, h.held⟩
      found := List.forall_mem_cons.mpr ⟨hcompute, h.found⟩ }

/-- What is stored for an occurrence of `this` is what is remembered of it. -/
theorem outgoing (h : Wrote b r) (hb : ∀ edge ∈ b.store.edges, edge.relation ≠ .pointsTo)
    {res : Resolution} (hm : (this, res) ∈ r.known) :
    r.graph.store.outgoing this (some .pointsTo) = res.edges this := by
  have hstored : ∀ entry ∈ r.known.reverse, (entry.2.edges entry.1).filter (fun e =>
      (some Relation.pointsTo).all (· == e.relation) && e.source == this) =
        if entry.1 = this then entry.2.edges entry.1 else [] := by
    intro entry hentry
    have hres := h.resolved (List.mem_reverse.mp hentry)
    split
    · next heq =>
      refine List.filter_eq_self.mpr fun edge he => ?_
      simp [(hres.edges he).1, (hres.edges he).2.1, heq]
    · next hne =>
      refine List.filter_eq_nil_iff.mpr fun edge he => ?_
      simp [(hres.edges he).1, hne]
  have hdistinct : (r.known.reverse.map (·.1)).Nodup := by
    rw [List.map_reverse, List.nodup_reverse]
    exact h.distinct
  rw [h.grown.outgoing, Store.outgoing_eq_nil hb, List.nil_append, written, List.filter_flatMap,
    List.flatMap_congr hstored]
  exact flatMap_ite_key hdistinct (List.mem_reverse.mpr hm) fun entry => entry.2.edges entry.1

/-- Every occurrence of `this` that is remembered can be read back. -/
theorem isSome_ofEdges? (h : Wrote b r) (hb : ∀ edge ∈ b.store.edges, edge.relation ≠ .pointsTo)
    (hm : this ∈ r.occurrences) :
    (Resolution.ofEdges? (r.graph.store.outgoing this (some .pointsTo))).isSome = true := by
  obtain ⟨res, hentry⟩ := mem_occurrences.mp hm
  rw [h.outgoing hb hentry, (h.resolved hentry).ofEdges?_edges]
  rfl

end Wrote

/-! ## The run that reads -/

/-- The graph on which owners have been stored has the owners that the graph had at first. -/
theorem Wrote.owned (h : Wrote b r) (hb : ∀ edge ∈ b.store.edges, edge.relation ≠ .pointsTo)
    (hs : Sound true b r) (hr : r.graph.Reloads b') :
    (b.owned true this).map Resolution.owners = (b'.owned true this).map Resolution.owners := by
  have houtage : b'.outage = b.outage := hr.outage.trans hs.outage
  by_cases hm : this ∈ r.occurrences
  · obtain ⟨res, hentry⟩ := mem_occurrences.mp hm
    have hown := hs.known _ hentry
    have hread : Resolution.ofEdges? (b'.store.outgoing this (some .pointsTo)) =
        some { res with cached := true } := by
      rw [hr.outgoing, h.outgoing hb hentry, (h.resolved hentry).ofEdges?_edges]
    rw [hown]
    unfold Service.owned Service.outgoing Service.ask at hown ⊢
    rw [houtage]
    cases hasked : b.outage (.outgoing this (some .pointsTo)) with
    | some reason =>
      rw [hasked] at hown
      cases hown
    | none =>
      simp only [bind, Except.bind, hread]
      rfl
  · have hout : b'.store.outgoing this (some .pointsTo) = b.store.outgoing this (some .pointsTo) :=
      (hr.outgoing _ _).trans (hs.unknown this (lookup_eq_none.mpr hm))
    rw [Service.owned_congr (hs.alike.trans hr.alike (.self b')) houtage hout]

/-- Nothing is written as long as all that is remembered can be read. -/
def Quiet (b : Service) (r : Resolver) : Prop :=
  (∀ this ∈ r.occurrences,
    (Resolution.ofEdges? (b.store.outgoing this (some .pointsTo))).isSome = true) → r.graph = b

theorem Quiet.new (b : Service) : Quiet b ⟨b, []⟩ := fun _ => rfl

theorem Quiet.resolve (h : Quiet b r) (hw : b.WritesAlike) (hs : Sound keep b r)
    (he : b.store.hasNode this = true) : Quiet b (r.resolve keep this).2 := by
  have hstep := hs.resolves hw he
  generalize (r.resolve keep this).1 = outcome at hstep
  generalize (r.resolve keep this).2 = next at hstep ⊢
  cases hstep with
  | known hm => exact h
  | failed hl ho => exact h
  | @found res _ hl ho hfinds =>
    have hearlier : Quiet b ⟨r.graph, (this, res) :: r.known⟩ :=
      fun hread => h fun other hm => hread other (List.mem_cons_of_mem _ hm)
    cases hfinds with
    | read hr => exact hearlier
    | computed hk => exact hearlier
    | stored _ _ hn =>
      -- An occurrence whose owners had to be computed cannot be read.
      intro hread
      have hsome := hread this List.mem_cons_self
      rw [← hs.unknown this hl, hn] at hsome
      cases hsome

/-! ## Side by side -/

/-- Resolvers that stay related by `K` also keep what every step keeps. -/
theorem Bridge.also {K J : Resolver → Resolver → Prop} (hK : Bridge mode keep keep' b b' K)
    (hJ : ∀ {r r' this}, K r r' → J r r' → b.store.hasNode this = true →
      J (r.resolve keep this).2 (r'.resolve keep' this).2) :
    Bridge mode keep keep' b b' fun r r' => K r r' ∧ J r r' where
  left h := hK.left h.1
  right h := hK.right h.1
  owners := by
    rintro r r' this ⟨hk, hj⟩ he
    have hnext := hJ hk hj he
    have hends := hK.owners hk he
    unfold Resolver.owners at hends ⊢
    generalize r.resolve keep this = x at hends hnext
    generalize r'.resolve keep' this = y at hends hnext
    obtain ⟨outcome, r⟩ := x
    obtain ⟨outcome', r'⟩ := y
    dsimp only at hends hnext ⊢
    generalize outcome.map Resolution.owners = found at hends
    generalize outcome'.map Resolution.owners = found' at hends
    cases hends with
    | answer ha hk => exact .answer ha ⟨hk, hnext⟩
    | fault ht hsame => exact .fault ht fun hm => ⟨(hsame hm).1, (hsame hm).2, hnext⟩

variable (hb : ∀ edge ∈ b.store.edges, edge.relation ≠ .pointsTo) (hw : b.WritesAlike)
include hb hw

/-- The run that stores, beside itself. -/
theorem bridge_wrote (hf : b.store.AstForest) :
    Bridge .same true true b b fun r r' => (Sound true b r ∧ Sound true b r') ∧ Wrote b r :=
  (bridge_self hw).also fun hk hj he => hj.resolve hb hf hw hk.1 he

/-- The run that stores, beside a run on the graph that it leaves. -/
theorem bridge_replay {last : Resolver} (hl : Wrote b last) (hs : Sound true b last)
    (hr : last.graph.Reloads b') :
    Bridge .same true true b b' fun r r' =>
      (Sound true b r ∧ Sound true b' r') ∧ r.occurrences = r'.occurrences ∧ Quiet b' r' := by
  have halike : Service.Alike .same b b' := hs.alike.trans hr.alike (.self b')
  have hw' : b'.WritesAlike := by
    intro e e' hsource hrel
    rw [hr.outage, hs.outage]
    exact hw e e' hsource hrel
  have hown : ∀ this,
      (b.owned true this).map Resolution.owners = (b'.owned true this).map Resolution.owners :=
    fun _ => hl.owned hb hs hr
  have hheld : ∀ {this}, b.store.hasNode this = true → b'.store.hasNode this = true :=
    fun he => by rwa [← Store.hasNode_congr halike.nodes]
  refine Bridge.also (bridge hw hw' fun this he => ⟨hheld he, ?_⟩) fun {r r' this} hk hj he => ?_
  · rw [hown this]
    exact .of_eq (by decide) fun _ _ => nofun
  · obtain ⟨hfst, -⟩ := hk.1.resolve hw he
    obtain ⟨hfst', -⟩ := hk.2.resolve hw' (hheld he)
    have hmap : ∀ x : Except GraphFault Resolution, (x.map Resolution.owners).isOk = x.isOk := by
      intro x
      cases x <;> rfl
    have hok : (r.resolve true this).1.isOk = (r'.resolve true this).1.isOk := by
      rw [hfst, hfst', ← hmap, hown this, hmap]
    refine ⟨?_, hj.2.resolve hw' hk.2 (hheld he)⟩
    rw [occurrences_resolve hk.1 hw he, occurrences_resolve hk.2 hw' (hheld he), hj.1, hok]

end Resolver

end RequestFlow

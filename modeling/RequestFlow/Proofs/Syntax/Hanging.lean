/-
Hanging children below a new node while it is built. The children of a node may
be made before it or after it, one by one or in a loop; either way the node is
rendered from what its children are rendered as.
-/
import RequestFlow.Proofs.Graph.Builder
import RequestFlow.Proofs.Syntax.Kinds

namespace RequestFlow

open Builder Writing

/-! ## Nodes with their children -/

/-- The children of a node stand in the order of its edges. -/
theorem Store.astChildren_eq {store : Store} {id : NodeId} {kids : Children Node}
    (ho : store.outgoing id (some .ast) = kids.map (·.1))
    (hn : ∀ kid ∈ kids, store.node? kid.1.target = some kid.2) :
    store.service.astChildren id = .ok kids := by
  change (store.outgoing id (some .ast)).mapM _ = _
  rw [ho]
  clear ho
  induction kids with
  | nil => rfl
  | cons kid kids ih =>
    rw [List.map_cons, List.mapM_cons, ih fun kid hk => hn kid (by simp [hk]),
      store.service_node (hn kid (by simp))]
    rfl

/-- A node that is written as a text from its children is rendered so one level up. -/
theorem Rendered.WritesAs.rendersAs {store : Store} {short : Bool} {depth : Nat} {node : Node}
    {kids : Children Node} {p : Printed}
    (h : WritesAs (store.service.renderUpTo short depth) short node kids p)
    (hk : store.service.astChildren node.id = .ok kids) :
    RendersAs (store.service.renderUpTo short (depth + 1)) node p := by
  obtain ⟨mentions, hrun, hl, hn⟩ := h {}
  refine ⟨⟨p.code, mentions.literals, mentions.identifiers⟩, ?_, rfl, hl, hn⟩
  rw [Service.renderUpTo, hk, ofChildren, hrun]
  rfl

namespace Build

variable {P : Store → Nat → Prop} {short : Bool}

/-- `m` returns the id of a node of which `R` holds. -/
abbrev Makes (P : Store → Nat → Prop) (m : Build NodeId) (R : Store → Nat → Node → Prop) : Prop :=
  Builds P m fun store depth id => ∃ node, store.node? id = some node ∧ R store depth node

/-- The node of that id is rendered as that text. -/
def Shows (short : Bool) (store : Store) (depth : Nat) (id : NodeId) (p : Printed) : Prop :=
  ∃ node, store.node? id = some node ∧ RendersAs (store.service.renderUpTo short depth) node p

/-- A name and a node are rendered together as that text. -/
def ShowsPair (text : String → Printed → Printed) (short : Bool) (store : Store) (depth : Nat)
    (pair : String × NodeId) (q : Printed) : Prop :=
  ∃ p, Shows short store depth pair.2 p ∧ q = text pair.1 p

theorem ShowsPair.exists_node {text : String → Printed → Printed} {short : Bool} {store : Store}
    {depth : Nat} {pair : String × NodeId} {q : Printed}
    (h : ShowsPair text short store depth pair q) :
    ∃ node, store.node? pair.2 = some node ∧ ∃ p,
      RendersAs (store.service.renderUpTo short depth) node p ∧ q = text pair.1 p := by
  obtain ⟨p, ⟨node, hn, hr⟩, hq⟩ := h
  exact ⟨node, hn, p, hr, hq⟩

/-- `m` returns the id of a node that is rendered as that text. -/
abbrev Prints (short : Bool) (P : Store → Nat → Prop) (m : Build NodeId) (p : Printed) : Prop :=
  Builds P m fun store depth id => Shows short store depth id p

/-- `P` tells what the node of that id is rendered as. -/
abbrev Known (short : Bool) (P : Store → Nat → Prop) (id : NodeId) (p : Printed) : Prop :=
  ∀ store depth, P store depth → Shows short store depth id p

abbrev KnownIf (short : Bool) (P : Store → Nat → Prop) (id : Option NodeId)
    (p : Option Printed) : Prop :=
  ∀ store depth, P store depth → Option.Rel (Shows short store depth) id p

abbrev KnownAll (short : Bool) (P : Store → Nat → Prop) (ids : List NodeId)
    (ps : List Printed) : Prop :=
  ∀ store depth, P store depth → List.Forall₂ (Shows short store depth) ids ps

/-- Below any node, `m` hangs children of which `K` holds. -/
def Hangs (P : Store → Nat → Prop) (m : NodeId → Build Unit)
    (K : Store → Nat → NodeId → Children Node → Prop) : Prop :=
  ∀ parent b, parent < b.nextId → ∃ es : List Edge,
    (∀ e ∈ es, e.relation = .ast ∧ e.source = parent) ∧ Adds es b ((m parent).run b).2 ∧
      ∀ store, Covers store b ((m parent).run b).2 → ∀ k ≤ b.nextId,
        (∀ depth, b.nextId ≤ depth + k → P store depth) →
          ∀ depth, ((m parent).run b).2.nextId ≤ depth + k → ∃ kids : Children Node,
            kids.map (·.1) = es ∧ (∀ kid ∈ kids, store.node? kid.1.target = some kid.2) ∧
              K store depth parent kids

/-- A new node has the fields it was described with. -/
theorem Makes.node {type : NodeType} {describe : Node → Node} (hi : ∀ n, (describe n).id = n.id) :
    Makes P (node type describe)
      fun _ _ node => ∃ id location, node = describe { id, type, location } := by
  refine fun b => ⟨.insertNode b (hi _), fun store hc _ _ _ _ _ => ?_⟩
  refine ⟨_, ?_, b.nextId, "line:" ++ toString b.line, rfl⟩
  refine (hc.node?_eq b.nextId (Nat.le_refl _) (Nat.lt_succ_self _)).trans ?_
  exact Store.node?_insertNode_self (hi _)

/-- A node is rendered from what is hung below it. -/
theorem Hangs.prints {type : NodeType} {describe : Node → Node} {m : NodeId → Build Unit}
    {K : Store → Nat → NodeId → Children Node → Prop} {p : Printed} (hm : Hangs P m K)
    (hi : ∀ n, (describe n).id = n.id)
    (hw : ∀ store depth id location kids, P store depth → K store depth id kids →
      Rendered.WritesAs (store.service.renderUpTo short depth) short
        (describe { id, type, location }) kids p) :
    Prints short P (do let parent ← Build.node type describe; m parent; return parent) p := by
  intro b
  let node := describe { id := b.nextId, type, location := "line:" ++ toString b.line }
  let b₁ : Builder := { b with nextId := b.nextId + 1, store := b.store.insertNode node }
  have hnew : b.nextId < b₁.nextId := Nat.lt_succ_self _
  have hadds₁ : Adds [] b b₁ := .insertNode b (hi _)
  obtain ⟨es, hes, hadds, hkids⟩ := hm b.nextId b₁ hnew
  have hlt := Nat.lt_of_lt_of_le hnew hadds.next_le
  refine ⟨(hadds₁.trans hadds).closed fun e he _ => ?_, fun store hc k hk hp depth hd => ?_⟩
  · rw [(hes e he).2]
    exact ⟨Nat.le_refl _, hlt⟩
  · change ((m b.nextId).run b₁).2.nextId ≤ depth + k at hd
    -- The new node is a level above what is hung below it.
    obtain ⟨depth, rfl⟩ : ∃ d, depth = d + 1 := ⟨depth - 1, by lia⟩
    obtain ⟨kids, rfl, hknown, hK⟩ := hkids store (hc.right hadds₁ nofun) (k + 1)
      (Nat.succ_le_succ hk) (fun d hd => hp d (by lia)) depth (by lia)
    have hnode : store.node? b.nextId = some node := by
      rw [hc.node?_eq b.nextId (Nat.le_refl _) hlt]
      refine (hadds.node?_eq b.nextId hnew).trans ?_
      exact Store.node?_insertNode_self (hi _)
    have hout : store.outgoing b.nextId (some .ast) = kids.map (·.1) := by
      have hold : b₁.store.outgoing b.nextId (some .ast) = [] :=
        (Store.outgoing_insertNode ..).trans (hc.fresh b.nextId (Nat.le_refl _) hlt)
      rw [hc.outgoing_eq b.nextId (Nat.le_refl _) hlt]
      refine (hadds.outgoing_eq b.nextId (.inl hnew)).trans ?_
      rw [hold, List.nil_append, kidEdges, List.filter_eq_self.mpr]
      intro e he
      simp [hes e he]
    refine ⟨node, hnode, (hw store depth b.nextId _ kids (hp depth (by lia)) hK).rendersAs ?_⟩
    rw [hi]
    exact store.astChildren_eq hout hknown

/-! ## Hanging children -/

/-- A child in a role, with arguments on its edge. -/
def kidWith (parent : NodeId) (role arguments : String) (child : Node) : Edge × Node :=
  ({ source := parent, target := child.id, relation := .ast, relationType := role, arguments },
    child)

/-- Children in a role, with arguments that depend on their positions. -/
def kidsFrom (parent : NodeId) (role : String) (arguments : Nat → String) (index : Nat) :
    List Node → Children Node
  | [] => []
  | child :: rest =>
    kidWith parent role (arguments index) child
      :: kidsFrom parent role arguments (index + 1) rest

/-- Makes a node for each item and hangs it below `parent`. -/
def hangEach {γ : Type} (make : γ → Build NodeId) (role : String) (arguments : Nat → String)
    (parent : NodeId) : (index : Nat) → List γ → Build Unit
  | _, [] => return
  | index, item :: rest => do
    let child ← make item
    edge { source := parent, target := child, relation := .ast, relationType := role,
           arguments := arguments index }
    hangEach make role arguments parent (index + 1) rest

namespace Hangs

variable {m m' : NodeId → Build Unit} {K K' : Store → Nat → NodeId → Children Node → Prop}
  {R : Store → Nat → Node → Prop} {γ δ : Type}

theorem nothing : Hangs P (fun _ => pure ()) fun store depth _ kids =>
    P store depth ∧ kids = [] := by
  intro _ b _
  refine ⟨[], by simp, .refl b, fun store _ k _ hp depth hd => ?_⟩
  exact ⟨[], rfl, by simp, hp depth hd, rfl⟩

theorem seq (h : Hangs P m K) (h' : Hangs P m' K') :
    Hangs P (fun parent => do m parent; m' parent) fun store depth parent kids =>
      ∃ k k', K store depth parent k ∧ K' store depth parent k' ∧ kids = k ++ k' := by
  intro parent b hlt
  obtain ⟨es, hes, hadds, hk⟩ := h parent b hlt
  have hlt₁ := Nat.lt_of_lt_of_le hlt hadds.next_le
  obtain ⟨es', hes', hadds', hk'⟩ := h' parent _ hlt₁
  refine ⟨es ++ es', ?_, hadds.trans hadds', fun store hc k hk₀ hp depth hd => ?_⟩
  · intro e he
    rcases List.mem_append.mp he with he | he
    · exact hes e he
    · exact hes' e he
  · have hc₁ := hc.left hadds' fun e he _ => (hes' e he).2 ▸ hlt
    have hc₂ := hc.right hadds fun e he _ => (hes e he).2 ▸ hlt₁
    obtain ⟨ks, rfl, hn, hK⟩ := hk store hc₁ k hk₀ hp depth (Nat.le_trans hadds'.next_le hd)
    obtain ⟨ks', rfl, hn', hK'⟩ := hk' store hc₂ k (Nat.le_trans hk₀ hadds.next_le)
      (fun d hd => hp d (Nat.le_trans hadds.next_le hd)) depth hd
    refine ⟨ks ++ ks', List.map_append, fun kid hkid => ?_, ks, ks', hK, hK', rfl⟩
    rcases List.mem_append.mp hkid with hkid | hkid
    · exact hn kid hkid
    · exact hn' kid hkid

theorem imp (h : Hangs P m K) (hi : ∀ store depth parent kids, P store depth →
    K store depth parent kids → K' store depth parent kids) : Hangs P m K' := by
  intro parent b hlt
  obtain ⟨es, hes, hadds, hk⟩ := h parent b hlt
  refine ⟨es, hes, hadds, fun store hc k hk₀ hp depth hd => ?_⟩
  obtain ⟨kids, hmap, hn, hK⟩ := hk store hc k hk₀ hp depth hd
  exact ⟨kids, hmap, hn, hi _ _ _ _ (hp depth (Nat.le_trans hadds.next_le hd)) hK⟩

theorem attach {make : Build NodeId} (h : Makes P make R) (role arguments : String) :
    Hangs P (fun parent => do
        edge { source := parent, target := ← make, relation := .ast, relationType := role,
               arguments })
      fun store depth parent kids =>
        ∃ node, R store depth node ∧ kids = [kidWith parent role arguments node] := by
  intro parent b hlt
  obtain ⟨hadds, hq⟩ := h b
  let e : Edge := { source := parent, target := (make.run b).1, relation := .ast,
                    relationType := role, arguments }
  refine ⟨[e], by simp [e], hadds.trans (.insertEdge _ e), fun store hc k hk hp depth hd => ?_⟩
  have hc₁ := hc.left (.insertEdge _ e) fun _ he _ => List.mem_singleton.mp he ▸ hlt
  obtain ⟨node, hnode, hr⟩ := hq store hc₁ k hk hp depth hd
  have hid := Store.id_of_node? hnode
  exact ⟨[kidWith parent role arguments node], by simp [kidWith, hid, e],
    by simp [kidWith, hid, hnode], node, hr, rfl⟩

/-- A child that was made before. -/
theorem child {id : NodeId}
    (h : ∀ store depth, P store depth → ∃ node, store.node? id = some node ∧ R store depth node)
    (role : String) :
    Hangs P (fun parent => child parent id role) fun store depth parent kids =>
      ∃ node, R store depth node ∧ kids = [kid parent role node] :=
  attach (.pure h) role ""

section Items

variable [Inhabited δ] {make : γ → Build NodeId} {G : Store → Nat → γ → δ → Prop}
  {R : Store → Nat → Node → δ → Prop}
  (hm : ∀ x q, Makes (fun store depth => G store depth x q) (make x)
    fun store depth node => R store depth node q)

include hm

/-- A child that may be absent. -/
theorem optional {item : Option γ} {q : Option δ}
    (hp : ∀ store depth, P store depth → Option.Rel (G store depth) item q) (role : String) :
    Hangs P (fun parent => match item with
        | some x => do Build.child parent (← make x) role
        | none => pure ())
      fun store depth parent kids =>
        ∃ node, Option.Rel (R store depth) node q ∧ kids = kid? parent role node := by
  cases item with
  | none =>
    refine nothing.imp fun store depth parent kids _ ⟨h, hkids⟩ => ⟨none, ?_, hkids⟩
    cases hp store depth h
    exact .none
  | some x =>
    -- Only `P` says that there is a text for the item, so it is taken with a default.
    have hsome : ∀ store depth, P store depth →
        q = some (q.getD default) ∧ G store depth x (q.getD default) := by
      intro store depth h
      cases hp store depth h with
      | some hx => exact ⟨rfl, hx⟩
    refine (attach ((hm x (q.getD default)).pre fun store depth h => (hsome store depth h).2)
      role "").imp ?_
    rintro store depth parent kids h ⟨node, hr, rfl⟩
    refine ⟨some node, ?_, rfl⟩
    rw [(hsome store depth h).1]
    exact .some hr

theorem each {items : List γ} {qs : List δ}
    (hp : ∀ store depth, P store depth → List.Forall₂ (G store depth) items qs) (role : String)
    (arguments : Nat → String) (index : Nat) :
    Hangs P (fun parent => hangEach make role arguments parent index items)
      fun store depth parent kids => ∃ nodes, List.Forall₂ (R store depth) nodes qs ∧
        kids = kidsFrom parent role arguments index nodes := by
  induction items generalizing qs index with
  | nil =>
    refine nothing.imp fun store depth parent kids _ ⟨h, hkids⟩ => ⟨[], ?_, hkids⟩
    cases hp store depth h
    exact .nil
  | cons x rest ih =>
    have hcons : ∀ store depth, P store depth → qs = qs.headD default :: qs.tail ∧
        G store depth x (qs.headD default) ∧ List.Forall₂ (G store depth) rest qs.tail := by
      intro store depth h
      cases hp store depth h with
      | cons hx hrest => exact ⟨rfl, hx, hrest⟩
    have hfirst := attach ((hm x (qs.headD default)).pre fun store depth h =>
      (hcons store depth h).2.1) role (arguments index)
    have hrest := ih (fun store depth h => (hcons store depth h).2.2) (index + 1)
    refine (hfirst.seq hrest).imp ?_
    rintro store depth parent kids h ⟨_, _, ⟨node, hnode, rfl⟩, ⟨nodes, hnodes, rfl⟩, rfl⟩
    refine ⟨node :: nodes, ?_, rfl⟩
    rw [(hcons store depth h).1]
    exact .cons hnode hnodes

end Items

end Hangs

/-! ## Loops as repeated hanging -/

theorem children_eq (parent : NodeId) (role : String) (index : Nat) (ids : List NodeId) :
    children parent role ids = hangEach pure role (fun _ => "") parent index ids := by
  induction ids generalizing index with
  | nil => rfl
  | cons id rest ih => rw [children, ih (index + 1)]; rfl

theorem indexedChildren_eq (parent : NodeId) (role : String) (index : Nat) (ids : List NodeId) :
    indexedChildren parent role index ids
      = hangEach pure role indexArguments parent index ids := by
  induction ids generalizing index with
  | nil => rfl
  | cons id rest ih => rw [indexedChildren, ih]; rfl

theorem parameters_eq (parent : NodeId) (index : Nat) (names : List String) :
    parameters parent index names = hangEach ident "params" indexArguments parent index names := by
  induction names generalizing index with
  | nil => rfl
  | cons name rest ih =>
    unfold parameters hangEach
    simp only [ih]

/-- A property of an object. -/
def property (entry : String × NodeId) : Build NodeId := do
  let property ← node .property
  child property (← ident entry.1) "key"
  child property entry.2 "value"
  return property

theorem properties_eq (parent : NodeId) (index : Nat) (entries : List (String × NodeId)) :
    properties parent entries =
      hangEach property "properties" (fun _ => "") parent index entries := by
  induction entries generalizing index with
  | nil => rfl
  | cons entry rest ih =>
    unfold properties
    simp only [ih (index + 1)]
    rfl

theorem kidsFrom_plain (parent : NodeId) (role : String) (index : Nat) (nodes : List Node) :
    kidsFrom parent role (fun _ => "") index nodes = nodes.map (kid parent role) := by
  induction nodes generalizing index with
  | nil => rfl
  | cons node rest ih => rw [kidsFrom, ih]; rfl

theorem kidsFrom_indexed (parent : NodeId) (role : String) (index : Nat) (nodes : List Node) :
    kidsFrom parent role indexArguments index nodes = indexedKids parent role index nodes := by
  induction nodes generalizing index with
  | nil => rfl
  | cons node rest ih => rw [kidsFrom, ih]; rfl

namespace Hangs

variable {ps : List Printed}

theorem childIf {id : Option NodeId} {q : Option Printed}
    (h : KnownIf short P id q)
    (role : String) :
    Hangs P (fun parent => childIf parent id role) fun store depth parent kids =>
      ∃ node, Option.Rel (RendersAs (store.service.renderUpTo short depth)) node q ∧
        kids = kid? parent role node := by
  have hopt := optional (fun _ _ => .pure fun _ _ h => h) h role
  cases id <;> exact hopt

theorem children {ids : List NodeId}
    (h : KnownAll short P ids ps)
    (role : String) :
    Hangs P (fun parent => children parent role ids) fun store depth parent kids =>
      ∃ nodes, List.Forall₂ (RendersAs (store.service.renderUpTo short depth)) nodes ps ∧
        kids = nodes.map (kid parent role) := by
  simp only [children_eq _ _ 0, ← kidsFrom_plain _ _ 0]
  exact each (fun _ _ => .pure fun _ _ h => h) h role _ 0

theorem indexedChildren {ids : List NodeId}
    (h : KnownAll short P ids ps)
    (role : String) :
    Hangs P (fun parent => indexedChildren parent role 0 ids) fun store depth parent kids =>
      ∃ nodes, List.Forall₂ (RendersAs (store.service.renderUpTo short depth)) nodes ps ∧
        kids = indexedKids parent role 0 nodes := by
  simp only [indexedChildren_eq, ← kidsFrom_indexed]
  exact each (fun _ _ => .pure fun _ _ h => h) h role _ 0

end Hangs

end Build

end RequestFlow

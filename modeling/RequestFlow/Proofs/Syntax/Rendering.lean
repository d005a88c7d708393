/-
Rendering on services that answer alike. Every name that a rendering mentions
stands at a node of the store: an identifier of that name, or an occurrence of
`this`.
-/
import RequestFlow.Proofs.Graph.Alike

namespace RequestFlow

variable {mode : Mode} {g h : Service}

/-- The name stands at the node: as an identifier, or for an occurrence of `this`. -/
def Service.Mentions (g : Service) (entry : String × NodeId) : Prop :=
  ∃ node, g.store.node? entry.2 = some node ∧
    (node.type = .identifier ∧ node.code = entry.1 ∨
      node.type = .thisExpression ∧ entry.1 = thisIdentifier)

theorem Service.Mentions.hasNode {entry : String × NodeId} (m : g.Mentions entry) :
    g.store.hasNode entry.2 = true :=
  m.elim fun node hn => Store.hasNode_iff.mpr ⟨node, hn.1⟩

namespace IdentifierMap

/-- Every name of the map stands at the node it was last seen at. -/
def Sound (g : Service) (map : IdentifierMap) : Prop := ∀ entry ∈ map.entries, g.Mentions entry

theorem mem_put {name : String} {origin : NodeId} {entry : String × NodeId}
    {entries : List (String × NodeId)} (hm : entry ∈ put name origin entries) :
    entry = (name, origin) ∨ entry ∈ entries := by
  induction entries with
  | nil => simpa [put] using hm
  | cons other rest ih =>
    obtain ⟨other, node⟩ := other
    rw [put] at hm
    split at hm
    · next heq =>
      rcases List.mem_cons.mp hm with rfl | hm
      · exact .inl (by rw [heq])
      · exact .inr (List.mem_cons_of_mem _ hm)
    · rcases List.mem_cons.mp hm with rfl | hm
      · exact .inr List.mem_cons_self
      · exact (ih hm).imp id (List.mem_cons_of_mem _)

theorem Sound.insert {map : IdentifierMap} (hs : map.Sound g) {name : String} {origin : NodeId}
    (hn : g.Mentions (name, origin)) : (map.insert name origin).Sound g := by
  intro entry hm
  rcases mem_put hm with rfl | hm
  · exact hn
  · exact hs entry hm

theorem Sound.append {map other : IdentifierMap} (hs : map.Sound g) (ho : other.Sound g) :
    (map ++ other).Sound g := by
  change (other.entries.foldl (fun map entry => map.insert entry.1 entry.2) map).Sound g
  rw [Sound] at ho
  generalize other.entries = entries at ho
  induction entries generalizing map with
  | nil => exact hs
  | cons entry rest ih =>
    exact ih (hs.insert (ho entry List.mem_cons_self)) fun e he => ho e (List.mem_cons_of_mem _ he)

theorem sound_empty : ({} : IdentifierMap).Sound g := by simp [Sound]

end IdentifierMap

/-! ## Writing -/

namespace Writing

variable {α β : Type} {P : α → Prop} {Q : β → Prop} {N : Node → Prop} {r r' : Renderer}

theorem run_part (r : Renderer) (child : Node) (m : RequestFlow.Mentions) :
    ((part child).run r).run m = r child >>= fun rendered =>
      .ok (rendered.code, ⟨m.literals ++ rendered.literals,
        m.identifiers ++ rendered.identifiers⟩) := by
  change (r child >>= fun rendered => .ok (rendered, m)) >>= _ = _
  cases r child <;> rfl

/-- The two renderers agree on the nodes of which `N` holds. -/
def RenderersAgree (mode : Mode) (g : Service) (N : Node → Prop) (r r' : Renderer) : Prop :=
  ∀ node, N node → Agree mode (·.identifiers.Sound g) (r node) (r' node)

/-- The same is written, and what is mentioned is sound. -/
def Alike (mode : Mode) (g : Service) (r r' : Renderer) (P : α → Prop) (w w' : Writing α) : Prop :=
  ∀ m : RequestFlow.Mentions, m.identifiers.Sound g →
    Agree mode (fun p => P p.1 ∧ p.2.identifiers.Sound g) ((w.run r).run m) ((w'.run r').run m)

namespace Alike

theorem pure {a : α} (ha : P a) : Alike mode g r r' P (pure a) (pure a) :=
  fun _ hm => .answer ⟨ha, hm⟩

theorem bind {w w' : Writing α} {f f' : α → Writing β} (hw : Alike mode g r r' P w w')
    (hf : ∀ a, P a → Alike mode g r r' Q (f a) (f' a)) :
    Alike mode g r r' Q (w >>= f) (w' >>= f') :=
  fun m hm => (hw m hm).bind fun p hp => hf p.1 hp.1 p.2 hp.2

theorem lift {x y : Except GraphFault α} (hx : Agree mode P x y) :
    Alike mode g r r' P (liftM x) (liftM y) := by
  intro m hm
  cases hx with
  | answer ha => exact .answer ⟨ha, hm⟩
  | fault ht hs =>
    refine .fault ht fun hm' => ?_
    rw [hs hm']; rfl

theorem part (hr : RenderersAgree mode g N r r') {child : Node} (hc : N child) :
    Alike mode g r r' (fun _ => True) (part child) (part child) := by
  intro m hm
  rw [run_part, run_part]
  exact (hr child hc).bind fun rendered hs => .answer ⟨trivial, hm.append hs⟩

theorem part? (hr : RenderersAgree mode g N r r') {child : Option Node}
    (hc : ∀ node ∈ child, N node) :
    Alike mode g r r' (fun _ => True) (part? child) (part? child) := by
  cases child with
  | none => exact pure trivial
  | some child => exact part hr (hc child rfl)

theorem parts (hr : RenderersAgree mode g N r r') {children : List Node}
    (hc : ∀ node ∈ children, N node) :
    Alike mode g r r' (fun _ => True) (parts children) (parts children) := by
  induction children with
  | nil => exact pure trivial
  | cons child rest ih =>
    refine (part hr (hc child List.mem_cons_self)).bind fun _ _ => ?_
    exact (ih fun node hn => hc node (List.mem_cons_of_mem _ hn)).bind fun _ _ => pure trivial

theorem joined (hr : RenderersAgree mode g N r r') {separator : String} {children : List Node}
    (hc : ∀ node ∈ children, N node) :
    Alike mode g r r' (fun _ => True) (joined separator children) (joined separator children) :=
  (parts hr hc).bind fun _ _ => pure trivial

theorem mentionName {name : String} {origin : NodeId} (hn : g.Mentions (name, origin)) :
    Alike mode g r r' (fun _ => True) (mentionName name origin) (mentionName name origin) :=
  fun _ hm => .answer ⟨trivial, hm.insert hn⟩

theorem mentionLiteral {value : String} :
    Alike mode g r r' (fun _ => True) (mentionLiteral value) (mentionLiteral value) :=
  fun _ hm => .answer ⟨trivial, hm⟩

end Alike

end Writing

namespace Rendered

open Writing

variable {N : Node → Prop} {r r' : Renderer} {node : Node} {kids : Children Node}

theorem holds_of_one? (hk : ∀ kid ∈ kids, N kid.2) {relationType : String}
    {position : Option Nat} {child : Node} (hc : kids.one? relationType position = some child) :
    N child := Children.one?_of_forall hk child hc

theorem literal_alike : Alike mode g r r' (fun _ => True) (literal node) (literal node) := by
  unfold literal
  split <;> exact Alike.mentionLiteral.bind fun _ _ => .pure trivial

theorem member_alike (hr : RenderersAgree mode g N r r') (hk : ∀ kid ∈ kids, N kid.2) :
    Alike mode g r r' (fun _ => True) (member node kids) (member node kids) := by
  unfold member
  refine (Alike.part? hr (Children.one?_of_forall hk)).bind fun _ _ => ?_
  split
  · exact .pure trivial
  · next property hp =>
    have hold := Children.one?_of_forall hk property hp
    split
    · exact (Alike.part hr hold).bind fun _ _ => .pure trivial
    · split
      · exact .pure trivial
      · exact (Alike.part hr hold).bind fun _ _ => .pure trivial

theorem functionBody?_holds (hk : ∀ kid ∈ kids, N kid.2) :
    ∀ node ∈ functionBody? kids, N node := by
  intro node hn
  unfold functionBody? at hn
  split at hn
  · exact Children.one?_of_forall hk node hn
  · exact Children.positional_of_forall hk node (List.mem_of_getLast? hn)

theorem function_alike {short : Bool} (hr : RenderersAgree mode g N r r')
    (hk : ∀ kid ∈ kids, N kid.2) :
    Alike mode g r r' (fun _ => True) (function short node kids) (function short node kids) := by
  unfold function
  extract_lets name
  refine (Alike.joined hr (Children.many_of_forall hk)).bind fun _ _ => ?_
  extract_lets arrow head
  split
  · exact .pure trivial
  · split
    · next body hb =>
      exact (Alike.part hr (functionBody?_holds hk body hb)).bind fun _ _ => .pure trivial
    · exact .pure trivial

/-- One node, given how its children are rendered: the cases are the kinds of nodes. -/
theorem write_alike {short : Bool} (hr : RenderersAgree mode g N r r') (hn : g.store.Holds node)
    {x y : Except GraphFault (Children Node)}
    (hx : Agree mode (fun kids => ∀ kid ∈ kids, N kid.2) x y) :
    Alike mode g r r' (fun _ => True) (write short node x) (write short node y) := by
  unfold write
  split
  case h_1 => exact literal_alike
  case h_2 hi =>
    refine (Alike.mentionName ?_).bind fun _ _ => .pure trivial
    exact ⟨node, hn, .inl ⟨hi, rfl⟩⟩
  case h_3 ht =>
    refine (Alike.mentionName ?_).bind fun _ _ => .pure trivial
    exact ⟨node, hn, .inr ⟨ht, rfl⟩⟩
  all_goals
    first
      | with_reducible exact .pure trivial
      | refine (Alike.lift hx).bind fun kids hk => ?_
        -- Children are written one after the other, some of them only when they are there.
        with_reducible
          repeat'
            first
              | exact .pure trivial
              | exact member_alike hr hk
              | exact function_alike hr hk
              | exact .part? hr (Children.one?_of_forall hk)
              | exact .joined hr (Children.many_of_forall hk)
              | exact .joined hr (Children.all_of_forall hk)
              | refine .bind (.part? hr (Children.one?_of_forall hk)) fun _ _ => ?_
              | refine .bind (.joined hr (Children.many_of_forall hk)) fun _ _ => ?_
              | refine .bind (.part hr (holds_of_one? hk ‹_›)) fun _ _ => ?_
              | refine .bind (.pure (P := fun _ => True) trivial) fun _ _ => ?_
              | split

end Rendered

namespace Service

theorem renderUpTo_agree (a : Alike mode g h) (short : Bool) (fuel : Nat) :
    Writing.RenderersAgree mode g g.store.Holds (g.renderUpTo short fuel)
      (h.renderUpTo short fuel) := by
  induction fuel with
  | zero => exact fun _ _ => .answer IdentifierMap.sound_empty
  | succ fuel ih =>
    intro node hn
    have hk : Agree mode (fun kids => ∀ kid ∈ kids, g.store.Holds kid.2) (g.astChildren node.id)
        (h.astChildren node.id) :=
      (astChildren_agree a node.id).imp fun kids hk kid hm => (hk kid hm).holds
    exact (Rendered.write_alike ih hn hk {} IdentifierMap.sound_empty).bind fun _ hp =>
      .answer hp.2

theorem renderNode_agree (a : Alike mode g h) {node : Node} (hn : g.store.Holds node)
    (short : Bool) :
    Agree mode (·.identifiers.Sound g) (g.renderNode node short) (h.renderNode node short) := by
  unfold renderNode Store.nodeCount
  rw [← a.nodes]
  exact renderUpTo_agree a short _ node hn

theorem render_agree (a : Alike mode g h) {id : NodeId}
    (he : mode = .total → g.store.hasNode id = true) (short : Bool) :
    Agree mode (·.identifiers.Sound g) (g.render id short) (h.render id short) :=
  (node_agree a he).bind fun _ hn => renderNode_agree a (Store.holds_of_node? hn) short

end Service

end RequestFlow

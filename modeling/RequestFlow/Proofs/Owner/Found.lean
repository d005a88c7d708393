/-
What the tree says about the owners of `this`, on services that answer alike.
An attachment has one of three shapes, and all that it names exists.
-/
import RequestFlow.Owner
import RequestFlow.Proofs.Syntax.Rendering

namespace RequestFlow.Service

variable {mode : Mode} {g h : Service}

/-- How a function is attached to an owner: by the assignment of a member, by a call on a receiver,
or as the value of a property. -/
inductive Attached (g : Service) (function : Node) : Attachment → Prop
  | member {assignment left object} (hn : g.store.Holds assignment)
    (ht : assignment.type = .assignmentExpression)
    (hl : g.child? assignment.id "left" (some 0) = .ok (some left))
    (hm : left.type = .memberExpression)
    (ho : g.child? left.id "object" (some 0) = .ok (some object)) :
    Attached g function ⟨assignment.id, .node object.id⟩
  | receiver {call receiver rest} (hn : g.store.Holds call) (ht : call.type = .callExpression)
    (hr : g.childrenIn call.id "arguments" (some 1) = .ok (receiver :: rest)) :
    Attached g function ⟨call.id, .node receiver.id⟩
  | property {edge property edge' object edge'' holder owner}
    (hp : g.astParent? function.id = .ok (some (edge, property))) (ht : property.type = .property)
    (ho : g.astParent? property.id = .ok (some (edge', object)))
    (hh : g.astParent? object.id = .ok (some (edge'', holder)))
    (hq : holder.type = .variableDeclarator ∧
        g.child? holder.id "id" (some 0) = .ok (some owner) ∨
      holder.type = .assignmentExpression ∧
        g.child? holder.id "left" (some 0) = .ok (some owner)) :
    Attached g function ⟨property.id, .node owner.id⟩

theorem thisFunction?_agree (a : Alike mode g h) (id : NodeId) :
    Agree mode (fun r => ∀ node ∈ r, g.store.Holds node) (g.thisFunction? id)
      (h.thisFunction? id) :=
  ((lineage_alike a id).find?_agree _).imp fun _ hr node hn => (hr node hn).1

/-! ## Event targets -/

theorem objectIf?_agree (a : Alike mode g h) (member : Option Node) (p : String → Bool) :
    Agree mode (fun r => ∀ node ∈ r, g.store.Holds node) (g.objectIf? member p)
      (h.objectIf? member p) := by
  unfold objectIf?
  split
  · exact .answer (by simp)
  next member =>
  refine (memberProperty?_agree a member).bind fun name _ => ?_
  split
  · refine (child?_agree a member.id "object" (some 0)).imp fun r hr node hn => ?_
    obtain ⟨_, hc⟩ := hr node hn
    exact hc.holds
  · exact .answer (by simp)

theorem selectors_agree (a : Alike mode g h) (edges : List Edge) :
    Agree mode (fun ids => ∀ id ∈ ids, g.store.hasNode id = true) (g.selectors edges)
      (h.selectors edges) := by
  induction edges with
  | nil => exact .answer nofun
  | cons edge rest ih =>
    simp only [selectors]
    split
    · exact ih
    next selector _ =>
    refine (node?_agree a selector).bind fun r hr => ?_
    subst hr
    split
    · exact ih
    next node hn =>
    refine ih.bind fun ids hids => .answer ?_
    exact List.forall_mem_cons.mpr ⟨Store.hasNode_iff.mpr ⟨node, hn⟩, hids⟩

theorem handlerTarget?_agree (a : Alike mode g h) (function : Node) :
    Agree mode (fun r => ∀ node ∈ r, g.store.Holds node) (g.handlerTarget? function)
      (h.handlerTarget? function) := by
  unfold handlerTarget?
  refine (astParent?_agree a function.id).bind fun r _ => ?_
  split
  · exact .answer (by simp)
  split
  · exact (child?_agree a _ _ _).bind fun member _ => objectIf?_agree a member _
  split
  · exact (child?_agree a _ _ _).bind fun member _ => objectIf?_agree a member _
  · exact .answer (by simp)

theorem eventOwners_agree (a : Alike mode g h) (function : Node) :
    Agree mode (fun ids => ∀ id ∈ ids, g.store.hasNode id = true) (g.eventOwners function)
      (h.eventOwners function) := by
  unfold eventOwners
  refine (incoming_agree a function.id (by simp)).bind fun edges _ => ?_
  refine (selectors_agree a edges).bind fun selected hs => ?_
  refine (handlerTarget?_agree a function).bind fun target ht => .answer fun id hid => ?_
  rcases List.mem_append.mp hid with hid | hid
  · exact hs id hid
  · rw [Option.mem_toList, Option.map_eq_some_iff] at hid
    obtain ⟨node, hn, rfl⟩ := hid
    exact (ht node hn).hasNode

/-! ## Attachments -/

theorem functionBinding_agree (a : Alike mode g h) (function : Node) :
    Agree mode (fun r => ∀ node ∈ r.2, g.store.Holds node) (g.functionBinding function)
      (h.functionBinding function) := by
  unfold functionBinding
  split
  · exact (child?_agree a _ _ _).bind fun _ _ => .answer (by simp)
  refine (astParent?_agree a function.id).bind fun r hr => ?_
  split
  · exact .answer (by simp)
  next edge parent =>
  have hp : g.store.Holds parent := (hr (edge, parent) rfl).holds
  split
  · exact (child?_agree a _ _ _).bind fun _ _ => .answer (by simpa using hp)
  split
  · exact (child?_agree a _ _ _).bind fun _ _ => .answer (by simpa using hp)
  · exact .answer (by simp)

theorem assignedOwner_agree (a : Alike mode g h) (function : Node) {binding : Option Node}
    (hb : ∀ node ∈ binding, g.store.Holds node) :
    Agree mode (fun ms => ∀ m ∈ ms, g.Attached function m) (g.assignedOwner binding)
      (h.assignedOwner binding) := by
  unfold assignedOwner
  split
  · exact .answer (by simp)
  next binding =>
  split
  · next ht =>
    refine (child?_agree a binding.id "left" (some 0)).bind_ok fun r _ hl => ?_
    split
    · exact .answer (by simp)
    next left _ =>
    refine (memberProperty?_agree a left).bind fun name _ => ?_
    extract_lets handler
    split
    · next hm =>
      refine (child?_agree a left.id "object" (some 0)).bind_ok fun r _ ho => .answer ?_
      intro m hmem
      rw [Option.mem_toList, Option.map_eq_some_iff] at hmem
      obtain ⟨object, rfl, rfl⟩ := hmem
      exact .member (hb binding rfl) ht hl hm.1 ho
    · exact .answer (by simp)
  · exact .answer (by simp)

theorem namedOwner_agree (a : Alike mode g h) (function : Node) (name : String) {assignment : Node}
    (hn : g.store.Holds assignment) (ht : assignment.type = .assignmentExpression) :
    Agree mode (fun ms => ∀ m ∈ ms, g.Attached function m) (g.namedOwner name assignment)
      (h.namedOwner name assignment) := by
  unfold namedOwner
  refine (child?_agree a assignment.id "right" (some 1)).bind fun right _ => ?_
  split
  · refine (child?_agree a assignment.id "left" (some 0)).bind_ok fun r _ hl => ?_
    split
    · exact .answer (by simp)
    next left _ =>
    split
    · next hm =>
      refine (child?_agree a left.id "object" (some 0)).bind_ok fun r _ ho => .answer ?_
      intro m hmem
      rw [Option.mem_toList, Option.map_eq_some_iff] at hmem
      obtain ⟨object, rfl, rfl⟩ := hmem
      exact .member hn ht hl hm ho
    · exact .answer (by simp)
  · exact .answer (by simp)

theorem receiverOwner_agree (a : Alike mode g h) (function : Node) (name : String) {call : Node}
    (hn : g.store.Holds call) (ht : call.type = .callExpression) :
    Agree mode (fun ms => ∀ m ∈ ms, g.Attached function m) (g.receiverOwner name call)
      (h.receiverOwner name call) := by
  unfold receiverOwner
  refine (child?_agree a call.id "callee" (some 0)).bind fun r _ => ?_
  split
  · exact .answer (by simp)
  next callee _ =>
  refine (memberProperty?_agree a callee).bind fun method _ => ?_
  split
  · refine (child?_agree a callee.id "object" (some 0)).bind fun target _ => ?_
    split
    · refine (childrenIn_agree a call.id "arguments" (some 1)).bind_ok fun args _ hr => ?_
      split
      · exact .answer (by simpa using .receiver hn ht hr)
      · exact .answer (by simp)
    · exact .answer (by simp)
  · exact .answer (by simp)

theorem objectOwner_agree (a : Alike mode g h) (function : Node) :
    Agree mode (fun ms => ∀ m ∈ ms, g.Attached function m) (g.objectOwner function)
      (h.objectOwner function) := by
  unfold objectOwner
  refine (astParent?_agree a function.id).bind_ok fun r _ hp => ?_
  split
  · exact .answer (by simp)
  next edge property _ =>
  split
  · next ht =>
    refine (astParent?_agree a property.id).bind_ok fun r _ ho => ?_
    split
    · exact .answer (by simp)
    next edge' object _ =>
    refine (astParent?_agree a object.id).bind_ok fun r _ hh => ?_
    split
    · exact .answer (by simp)
    next edge'' holder _ =>
    extract_lets finish
    have hfinish : ∀ owner, (∀ q ∈ owner,
          holder.type = .variableDeclarator ∧ g.child? holder.id "id" (some 0) = .ok (some q) ∨
          holder.type = .assignmentExpression ∧ g.child? holder.id "left" (some 0) = .ok (some q)) →
        Agree mode (fun ms => ∀ m ∈ ms, g.Attached function m) (finish owner) (finish owner) := by
      intro owner hq
      refine .answer fun m hmem => ?_
      rw [Option.mem_toList, Option.map_eq_some_iff] at hmem
      obtain ⟨q, hmem, rfl⟩ := hmem
      exact .property hp ht.1 ho hh (hq q hmem)
    split
    · next hholder =>
      refine (child?_agree a holder.id "id" (some 0)).bind_ok fun owner _ hq => hfinish owner ?_
      rintro q rfl
      exact .inl ⟨hholder.1, hq⟩
    split
    · next hholder =>
      refine (child?_agree a holder.id "left" (some 0)).bind_ok fun owner _ hq => hfinish owner ?_
      rintro q rfl
      exact .inr ⟨hholder.1, hq⟩
    · exact hfinish none (by simp)
  · exact .answer (by simp)

theorem methodOwners_agree (a : Alike mode g h) (function : Node) :
    Agree mode (fun ms => ∀ m ∈ ms, g.Attached function m) (g.methodOwners function)
      (h.methodOwners function) := by
  have hflat : ∀ {lists : List (List Attachment)}, (∀ ms ∈ lists, ∀ m ∈ ms, g.Attached function m) →
      ∀ m ∈ lists.flatten, g.Attached function m := by
    intro lists hl m hm
    obtain ⟨ms, hms, hm⟩ := List.mem_flatten.mp hm
    exact hl ms hms m hm
  have happ : ∀ {ms ms' : List Attachment}, (∀ m ∈ ms, g.Attached function m) →
      (∀ m ∈ ms', g.Attached function m) → ∀ m ∈ ms ++ ms', g.Attached function m :=
    fun h₁ h₂ m hm => (List.mem_append.mp hm).elim (h₁ m) (h₂ m)
  unfold methodOwners
  refine (functionBinding_agree a function).bind fun r hb => ?_
  obtain ⟨name, binding⟩ := r
  refine (assignedOwner_agree a function hb).bind fun assigned hassigned => ?_
  extract_lets finish finish'
  have hfinish : ∀ named, (∀ m ∈ named, g.Attached function m) →
      Agree mode (fun ms => ∀ m ∈ ms, g.Attached function m) (finish named) (finish' named) :=
    fun named hn => (objectOwner_agree a function).bind fun stored hs =>
      .answer (happ (happ hassigned hn) hs)
  split
  · exact hfinish [] nofun
  next name =>
  refine (ofType_agree a .assignmentExpression).bind fun nodes hnodes => ?_
  refine (Agree.mapM fun node hm =>
    namedOwner_agree a function name (hnodes node hm).1 (hnodes node hm).2).bind fun named hn => ?_
  refine (ofType_agree a .callExpression).bind fun calls hcalls => ?_
  refine (Agree.mapM fun call hm =>
    receiverOwner_agree a function name (hcalls call hm).1 (hcalls call hm).2).bind
      fun receivers hr => ?_
  exact hfinish _ (happ (hflat hn) (hflat hr))

/-- A resolution that the tree gives: the window alone, or attachments of one function, and event
targets that exist. -/
structure Resolved (g : Service) (r : Resolution) : Prop where
  methods : (∃ id, g.store.hasNode id = true ∧ r.methods = [⟨id, .window⟩]) ∨
    r.methods ≠ [] ∧ r.methods.Nodup ∧ ∃ function, ∀ m ∈ r.methods, g.Attached function m
  distinct : r.events.Nodup
  events : ∀ id ∈ r.events, g.store.hasNode id = true

/-- What the tree gives for any id. Where no node has it, it may itself be the place of the window. -/
theorem computeOwners_agree_or (a : Alike mode g h) (this : NodeId) :
    Agree mode (fun r => r = { methods := [⟨this, .window⟩] } ∨ g.Resolved r)
      (g.computeOwners this) (h.computeOwners this) := by
  unfold computeOwners
  refine (thisFunction?_agree a this).bind fun r hr => ?_
  split
  · refine ((lineage_alike a this).top_agree this).bind fun top ht => .answer ?_
    refine ht.imp (fun h => by rw [h]) fun he => ?_
    exact ⟨.inl ⟨top, he, rfl⟩, List.nodup_nil, nofun⟩
  next function =>
  refine (eventOwners_agree a function).bind fun events hevents => ?_
  refine (methodOwners_agree a function).bind fun methods hmethods => .answer (.inr ?_)
  refine ⟨?_, nodup_firsts, fun id hid => hevents id (mem_firsts.mp hid)⟩
  dsimp only
  split
  · exact .inl ⟨function.id, (hr function rfl).hasNode, rfl⟩
  · next hne =>
    refine .inr ⟨fun hnil => hne ?_, nodup_firsts, function, fun m hm => hmethods m (mem_firsts.mp hm)⟩
    rw [List.isEmpty_iff, List.eq_nil_iff_forall_not_mem]
    intro m hm
    have := mem_firsts.mpr hm
    simp [hnil] at this

theorem computeOwners_agree (a : Alike mode g h) {this : NodeId}
    (he : g.store.hasNode this = true) :
    Agree mode g.Resolved (g.computeOwners this) (h.computeOwners this) := by
  refine (computeOwners_agree_or a this).imp fun r hr => hr.elim (fun hw => ?_) id
  rw [hw]
  exact ⟨.inl ⟨this, he, rfl⟩, List.nodup_nil, nofun⟩

theorem resolved_of_computeOwners {this : NodeId} (he : g.store.hasNode this = true)
    {r : Resolution} (hc : g.computeOwners this = .ok r) : g.Resolved r :=
  ((computeOwners_agree (Alike.self g) he).of_ok hc).2

end RequestFlow.Service

/-
Call sites on services that answer alike. The calls exist where the sites say, and
the names in their arguments stand at nodes of the store.
-/
import RequestFlow.Call.Binding
import RequestFlow.Proofs.Syntax.Rendering

namespace RequestFlow

variable {mode : Mode} {g h : Service}

/-- The call stands where the site says, and its arguments mention what is there. -/
structure CallSite.Sound (g : Service) (site : CallSite) : Prop where
  place : ∃ call, g.store.Holds call ∧ site.call = call.id ∧ site.location = call.location
  arguments : ∀ binding ∈ site.bindings, binding.2.identifiers.Sound g

theorem CallSite.Sound.call {site : CallSite} (hs : site.Sound g) :
    g.store.hasNode site.call = true := by
  obtain ⟨call, hc, hid, -⟩ := hs.place
  exact hid ▸ hc.hasNode

theorem CallSite.Sound.get? {site : CallSite} (hs : site.Sound g) {param : String}
    {argument : Argument} (ha : site.get? param = some argument) : argument.identifiers.Sound g := by
  obtain ⟨binding, hf, rfl⟩ := Option.map_eq_some_iff.mp ha
  exact hs.arguments binding (List.mem_of_find?_eq_some hf)

namespace Service

theorem parameters_agree (a : Alike mode g h) (function : NodeId) :
    Agree mode (fun _ => True) (g.parameters function) (h.parameters function) :=
  (childrenIn_agree a function "params" (some 0)).bind fun _ _ => .answer trivial

theorem describeArgument_agree (a : Alike mode g h) {arg : Node} (ha : g.store.Holds arg) :
    Agree mode (·.identifiers.Sound g) (g.describeArgument arg) (h.describeArgument arg) := by
  unfold describeArgument
  split
  · exact .answer IdentifierMap.sound_empty
  · next hk =>
    have ht : arg.type = .identifier := by
      unfold ArgumentKind.of at hk
      split at hk <;> first | assumption | cases hk
    exact .answer (IdentifierMap.sound_empty.insert ⟨arg, ha, .inl ⟨ht, rfl⟩⟩)
  · exact (renderNode_agree a ha false).bind fun _ hr => .answer hr

theorem bindArguments_agree (a : Alike mode g h) {call : Node} (hc : g.store.Holds call)
    (params : List String) {args : List Node} (ha : ∀ arg ∈ args, g.store.Holds arg) :
    Agree mode (·.Sound g) (g.bindArguments call params args) (h.bindArguments call params args) := by
  have hb : Agree mode (fun bs : List (String × Argument) => ∀ b ∈ bs, b.2.identifiers.Sound g)
      ((params.zip args).mapM fun pair => do .ok (pair.1, ← g.describeArgument pair.2))
      ((params.zip args).mapM fun pair => do .ok (pair.1, ← h.describeArgument pair.2)) :=
    .mapM fun pair hp => (describeArgument_agree a (ha pair.2 (List.of_mem_zip hp).2)).bind
      fun _ hs => .answer hs
  refine hb.bind fun bindings hs => .answer ⟨⟨call, hc, rfl, rfl⟩, fun binding hm => hs binding ?_⟩
  dsimp only at hm
  split at hm
  · exact List.mem_reverse.mp hm
  · exact hm

theorem continuation?_agree (a : Alike mode g h) (function : NodeId) :
    Agree mode (fun r => ∀ p ∈ r, g.store.Holds p.1 ∧ g.store.Holds p.2) (g.continuation? function)
      (h.continuation? function) := by
  unfold continuation?
  refine (astParent?_agree a function).bind fun r hr => ?_
  split
  · exact .answer (by simp)
  next edge call =>
  split
  · refine (child?_agree a call.id "callee" (some 0)).bind fun r _ => ?_
    split
    · exact .answer (by simp)
    next callee _ =>
    refine (memberProperty?_agree a callee).bind fun name _ => ?_
    split
    · refine (child?_agree a callee.id "object" (some 0)).bind fun r hk => .answer ?_
      intro p hp
      obtain ⟨receiver, hm, rfl⟩ := Option.map_eq_some_iff.mp hp
      obtain ⟨_, hchild⟩ := hk receiver hm
      exact ⟨(hr (edge, call) rfl).holds, hchild.holds⟩
    · exact .answer (by simp)
  · exact .answer (by simp)

theorem callSites_agree (a : Alike mode g h) (hc : mode = .total → g.store.Closed)
    (function : NodeId) :
    Agree mode (fun sites => ∀ site ∈ sites, site.Sound g) (g.callSites function)
      (h.callSites function) := by
  unfold callSites
  refine (parameters_agree a function).bind fun params _ => ?_
  refine (incoming_agree a function (by simp)).bind fun edges he => ?_
  have hsites : Agree mode (fun sites => ∀ site ∈ sites, site.Sound g)
      (edges.mapM fun edge => do
        let call ← g.node edge.source
        g.bindArguments call params (← g.childrenIn call.id "arguments" (some 1)))
      (edges.mapM fun edge => do
        let call ← h.node edge.source
        h.bindArguments call params (← h.childrenIn call.id "arguments" (some 1))) := by
    refine .mapM fun edge hm => ?_
    have hedge := (Store.mem_incoming.mp (he ▸ hm)).1
    refine (node_agree a fun ht => (hc ht edge hedge).1).bind fun call hcall => ?_
    refine (childrenIn_agree a call.id "arguments" (some 1)).bind fun args hargs => ?_
    refine bindArguments_agree a (Store.holds_of_node? hcall) params fun arg hm => ?_
    obtain ⟨_, hchild⟩ := hargs arg hm
    exact hchild.holds
  refine hsites.bind fun sites hs => ?_
  refine (continuation?_agree a function).bind fun r hr => ?_
  split
  · next call receiver =>
    obtain ⟨hcall, hreceiver⟩ := hr (call, receiver) rfl
    refine (bindArguments_agree a hcall params (by simpa using hreceiver)).bind fun site hsite => ?_
    refine .answer fun s hm => ?_
    rcases List.mem_append.mp hm with hm | hm
    · exact hs s hm
    · rw [List.mem_singleton.mp hm]; exact hsite
  · exact .answer hs

end Service

end RequestFlow

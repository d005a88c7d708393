/-
The scan for sinks on services that answer alike. Sinks and their arguments are
nodes of the store.
-/
import RequestFlow.Proofs.Syntax.Rendering
import RequestFlow.Sink

namespace RequestFlow

variable {mode : Mode} {g h : Service}

/-- The sink and its argument are nodes of the store. -/
structure Sink.Held (g : Service) (sink : Sink) : Prop where
  node : g.store.Holds sink.node
  argument : g.store.Holds sink.argument

theorem Sink.at?_held {family : SinkFamily} {node : Node} (hn : g.store.Holds node)
    {argument : Option Node} (ha : ∀ arg ∈ argument, g.store.Holds arg) :
    ∀ sink ∈ Sink.at? family node argument, sink.Held g := by
  intro sink hs
  obtain ⟨arg, hm, rfl⟩ := List.mem_map.mp hs
  exact ⟨hn, ha arg (Option.mem_toList.mp hm)⟩

namespace Service

/-- The child of a node, as a node of the store. -/
theorem child?_holds (a : Alike mode g h) (id : NodeId) (relationType : String)
    (position : Option Nat) :
    Agree mode (fun r => ∀ node ∈ r, g.store.Holds node) (g.child? id relationType position)
      (h.child? id relationType position) :=
  (child?_agree a id relationType position).imp fun _ hr node hn =>
    (hr node hn).elim fun _ hc => hc.holds

theorem valueIn?_agree (a : Alike mode g h) (name : String) (properties : List Node) :
    Agree mode (fun r => ∀ node ∈ r, g.store.Holds node) (g.valueIn? name properties)
      (h.valueIn? name properties) := by
  induction properties with
  | nil => exact .answer (by simp)
  | cons property rest ih =>
    simp only [valueIn?]
    refine (child?_agree a property.id "key" (some 0)).bind fun r _ => ?_
    split
    · exact ih
    split
    · exact child?_holds a _ _ _
    · exact ih

theorem propertyValue?_agree (a : Alike mode g h) (object : Node) (name : String) :
    Agree mode (fun r => ∀ node ∈ r, g.store.Holds node) (g.propertyValue? object name)
      (h.propertyValue? object name) :=
  (childrenIn_agree a object.id "properties" (some 0)).bind fun properties _ =>
    valueIn?_agree a name properties

/-! ## Calls -/

theorem ajaxSinks_agree (a : Alike mode g h) {call : Node} (hc : g.store.Holds call)
    {settings : Option Node} (hs : ∀ node ∈ settings, g.store.Holds node) :
    Agree mode (fun sinks => ∀ sink ∈ sinks, sink.Held g) (g.ajaxSinks call settings)
      (h.ajaxSinks call settings) := by
  cases settings with
  | none => exact .answer (by simp)
  | some settings =>
    have hsettings : g.store.Holds settings := hs settings rfl
    simp only [ajaxSinks]
    split
    · refine (propertyValue?_agree a settings "url").bind fun url hurl => ?_
      refine (propertyValue?_agree a settings "data").bind fun data hdata => ?_
      refine (propertyValue?_agree a settings "headers").bind fun headers hheaders => .answer ?_
      intro sink hm
      rcases List.mem_append.mp hm with hm | hm
      · rcases List.mem_append.mp hm with hm | hm
        · refine Sink.at?_held hc ?_ sink hm
          cases url with
          | none => simpa using hsettings
          | some url => simpa using hurl url rfl
        · exact Sink.at?_held hc hdata sink hm
      · exact Sink.at?_held hc hheaders sink hm
    · exact .answer (Sink.at?_held hc (by simpa using hsettings))

variable {call : Node} (hc : g.store.Holds call) {args : List Node}
  (ha : ∀ arg ∈ args, g.store.Holds arg)
include hc ha

theorem constructionSinks_agree (a : Alike mode g h) (callee : Node) :
    Agree mode (fun sinks => ∀ sink ∈ sinks, sink.Held g) (g.constructionSinks call callee args)
      (h.constructionSinks call callee args) := by
  have harg : ∀ i, ∀ arg ∈ args[i]?, g.store.Holds arg :=
    fun i arg hm => ha arg (List.mem_of_getElem? hm)
  unfold constructionSinks
  extract_lets finish
  have hfinish : ∀ name, Agree mode (fun sinks => ∀ sink ∈ sinks, sink.Held g) (finish name)
      (finish name) := by
    intro name
    refine .answer ?_
    split
    · exact Sink.at?_held hc (harg 0)
    · exact Sink.at?_held hc (harg 0)
    · simp
  split
  · exact hfinish _
  · exact (memberProperty?_agree a callee).bind fun name _ => hfinish name

theorem methodSinks_agree (a : Alike mode g h) (method receiver : String) :
    Agree mode (fun sinks => ∀ sink ∈ sinks, sink.Held g) (g.methodSinks call args method receiver)
      (h.methodSinks call args method receiver) := by
  have harg : ∀ i, ∀ arg ∈ args[i]?, g.store.Holds arg :=
    fun i arg hm => ha arg (List.mem_of_getElem? hm)
  unfold methodSinks
  split
  · refine .answer ?_
    split
    · exact Sink.at?_held hc (harg 0)
    · exact Sink.at?_held hc (harg 1)
  · refine .answer ?_
    split
    · exact Sink.at?_held hc (harg 0)
    · simp
  · exact ajaxSinks_agree a hc (harg 0)
  · exact .answer (Sink.at?_held hc (harg 1))
  · exact .answer (Sink.at?_held hc (harg 0))
  · refine .answer ?_
    split
    · exact Sink.at?_held hc (harg 1)
    · simp
  · refine .answer ?_
    split
    · simp
    · exact Sink.at?_held hc (harg 0)
  · exact .answer (Sink.at?_held hc (harg 1))
  · exact .answer (by simp)

omit ha in
theorem invocationSinks_agree (a : Alike mode g h) :
    Agree mode (fun sinks => ∀ sink ∈ sinks, sink.Held g) (g.invocationSinks call)
      (h.invocationSinks call) := by
  unfold invocationSinks
  refine (child?_agree a call.id "callee" (some 0)).bind fun r _ => ?_
  split
  · exact .answer (by simp)
  next callee _ =>
  refine (childrenIn_agree a call.id "arguments" (some 1)).bind fun args hargs => ?_
  have ha : ∀ arg ∈ args, g.store.Holds arg := fun arg hm => (hargs arg hm).elim fun _ hc => hc.holds
  have harg : ∀ i, ∀ arg ∈ args[i]?, g.store.Holds arg :=
    fun i arg hm => ha arg (List.mem_of_getElem? hm)
  split
  · exact constructionSinks_agree hc ha a callee
  split
  · refine .answer ?_
    split
    · exact Sink.at?_held hc (harg 0)
    · exact Sink.at?_held hc (harg 1)
    · simp
  refine (memberProperty?_agree a callee).bind fun method _ => ?_
  split
  · exact .answer (by simp)
  refine (child?_holds a callee.id "object" (some 0)).bind fun object hobject => ?_
  extract_lets finish finish'
  have hfinish : ∀ receiver, Agree mode (fun sinks => ∀ sink ∈ sinks, sink.Held g)
      (finish receiver) (finish' receiver) := fun receiver => methodSinks_agree hc ha a _ receiver
  split
  · next object =>
    refine (renderNode_agree a (hobject object rfl) false).bind fun rendered _ => ?_
    exact hfinish _
  · exact hfinish _

omit hc ha

/-! ## Assignments and settings -/

theorem assignmentSinks_agree (a : Alike mode g h) {assignment : Node}
    (hn : g.store.Holds assignment) :
    Agree mode (fun sinks => ∀ sink ∈ sinks, sink.Held g) (g.assignmentSinks assignment)
      (h.assignmentSinks assignment) := by
  unfold assignmentSinks
  refine (child?_holds a assignment.id "left" (some 0)).bind fun r hleft => ?_
  split
  · exact .answer (by simp)
  next left =>
  refine (child?_holds a assignment.id "right" (some 1)).bind fun right hright => ?_
  refine (renderNode_agree a (hleft left rfl) false).bind fun rendered _ => ?_
  extract_lets target
  split
  · exact .answer (Sink.at?_held hn hright)
  refine (memberProperty?_agree a left).bind fun name _ => ?_
  split
  · exact .answer (Sink.at?_held hn hright)
  · exact .answer (by simp)

theorem isAjaxSettings_agree (a : Alike mode g h) (object : Node) :
    Agree mode (fun _ => True) (g.isAjaxSettings object) (h.isAjaxSettings object) := by
  unfold isAjaxSettings
  refine (astParent?_agree a object.id).bind fun r _ => ?_
  split
  · exact .answer trivial
  split
  · exact (child?_agree a _ _ _).bind fun _ _ => .answer trivial
  split
  · refine (child?_agree a _ _ _).bind fun r _ => ?_
    split
    · exact .answer trivial
    · exact (memberProperty?_agree a _).bind fun _ _ => .answer trivial
  · exact .answer trivial

theorem settingsOf_agree (a : Alike mode g h) (scope : SinkScope) {object : Node}
    (ho : g.store.Holds object) :
    Agree mode (fun pairs => ∀ pair ∈ pairs, g.store.Holds pair.1 ∧ g.store.Holds pair.2)
      (g.settingsOf scope object) (h.settingsOf scope object) := by
  unfold settingsOf
  split
  · refine (isAjaxSettings_agree a object).bind fun b _ => ?_
    split
    · refine (propertyValue?_agree a object "url").bind fun url hurl => .answer ?_
      intro pair hm
      rw [Option.mem_toList, Option.map_eq_some_iff] at hm
      obtain ⟨url, hm, rfl⟩ := hm
      exact ⟨ho, hurl url hm⟩
    · exact .answer (by simp)
  · exact .answer (by simp)

theorem holdsAny_agree (a : Alike mode g h) (object : Node) (ids : List NodeId) :
    Agree mode (fun _ => True) (g.holdsAny object ids) (h.holdsAny object ids) := by
  induction ids with
  | nil => exact .answer trivial
  | cons other rest ih =>
    simp only [holdsAny]
    split
    · refine (isBelow_agree a other object.id).bind fun b _ => ?_
      split
      · exact .answer trivial
      · exact ih
    · exact ih

theorem settingsSinks_agree (a : Alike mode g h) (scope : SinkScope) :
    Agree mode (fun sinks => ∀ sink ∈ sinks, sink.Held g) (g.settingsSinks scope)
      (h.settingsSinks scope) := by
  unfold settingsSinks
  refine (ofType_agree a .objectExpression).bind fun objects hobjects => ?_
  refine (Agree.mapM fun object hm => settingsOf_agree a scope (hobjects object hm).1).bind
    fun lists hlists => ?_
  extract_lets found ids
  have hfound : ∀ pair ∈ found, g.store.Holds pair.1 ∧ g.store.Holds pair.2 := by
    intro pair hm
    obtain ⟨pairs, hp, hm⟩ := List.mem_flatten.mp hm
    exact hlists pairs hp pair hm
  have hsinks : Agree mode (fun lists => ∀ sinks ∈ lists, ∀ sink ∈ sinks, sink.Held g)
      (found.mapM fun pair => do
        if ← g.holdsAny pair.1 ids then .ok []
        else .ok (Sink.at? .ajaxSettings pair.1 (some pair.2)))
      (found.mapM fun pair => do
        if ← h.holdsAny pair.1 ids then .ok []
        else .ok (Sink.at? .ajaxSettings pair.1 (some pair.2))) := by
    refine .mapM fun pair hm => (holdsAny_agree a pair.1 ids).bind fun b _ => ?_
    split
    · exact .answer (by simp)
    · exact .answer (Sink.at?_held (hfound pair hm).1 (by simpa using (hfound pair hm).2))
  refine hsinks.bind fun sinks hs => .answer fun sink hm => ?_
  obtain ⟨list, hl, hm⟩ := List.mem_flatten.mp hm
  exact hs list hl sink hm

/-- The scan for sinks. -/
theorem sinks_agree (a : Alike mode g h) (scope : SinkScope) :
    Agree mode (fun sinks => ∀ sink ∈ sinks, sink.Held g) (g.sinks scope) (h.sinks scope) := by
  have hflat : ∀ {lists : List (List Sink)}, (∀ sinks ∈ lists, ∀ sink ∈ sinks, sink.Held g) →
      ∀ sink ∈ lists.flatten, sink.Held g := by
    intro lists hl sink hm
    obtain ⟨sinks, hs, hm⟩ := List.mem_flatten.mp hm
    exact hl sinks hs sink hm
  unfold sinks
  refine (ofType_agree a .callExpression).bind fun nodes hnodes => ?_
  refine (Agree.mapM fun node hm =>
    invocationSinks_agree (hnodes node (List.mem_filter.mp hm).1).1 a).bind fun calls hcalls => ?_
  refine (ofType_agree a .newExpression).bind fun nodes hnodes => ?_
  refine (Agree.mapM fun node hm =>
    invocationSinks_agree (hnodes node (List.mem_filter.mp hm).1).1 a).bind fun news hnews => ?_
  refine (ofType_agree a .assignmentExpression).bind fun nodes hnodes => ?_
  refine (Agree.mapM fun node hm =>
    assignmentSinks_agree a (hnodes node (List.mem_filter.mp hm).1).1).bind fun sets hsets => ?_
  refine (settingsSinks_agree a scope).bind fun settings hsettings => .answer fun sink hm => ?_
  have hall := (List.mem_filter.mp (mem_sortBy.mp (mem_of_mem_dedupNext hm))).1
  rcases List.mem_append.mp hall with hall | hall
  · rcases List.mem_append.mp hall with hall | hall
    · rcases List.mem_append.mp hall with hall | hall
      · exact hflat hcalls sink hall
      · exact hflat hnews sink hall
    · exact hflat hsets sink hall
  · exact hsettings sink hall

end Service

end RequestFlow

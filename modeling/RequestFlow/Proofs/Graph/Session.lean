/-
Sessions with a builder: any calls, one after the other, in which each node that
is passed was returned by an earlier call. Whatever the calls are, the graph they
leave behind is numbered in order and closed, and its tree has no cycle, so every
walk of the analyses through it ends.

Whether the tree is a forest depends on what was passed. A call hangs the nodes it
is given as children; the nodes it makes it hangs itself, except the one it
returns. A node made inside a call can still be looked up later, and hung once
more.
-/
import RequestFlow.Proofs.Graph.Growth
import RequestFlow.Proofs.Syntax.Walks

namespace RequestFlow.Build

open Builder

/-! ## Forms -/

/-- A form whose parts are nodes that were made before. -/
inductive Form where
  /-- A node with fields of its own; its id is the builder's. -/
  | node (type : NodeType) (describe : Node → Node) (keeps : ∀ n, (describe n).id = n.id)
  | ident (name : String)
  | this
  | literal (value : String)
  | number (value : Int)
  | member (object : NodeId) (property : String)
  | computedMember (object property : NodeId)
  | path (dotted : String)
  | call (callee : NodeId) (args : List NodeId)
  | new (callee : NodeId) (args : List NodeId)
  | methodCall (object : NodeId) (method : String) (args : List NodeId)
  | assign (left right : NodeId)
  | binary (op : String) (left right : NodeId)
  | logical (op : String) (left right : NodeId)
  | update (op : String) (argument : NodeId)
  | unary (op : String) (argument : NodeId)
  | conditional (test consequent alternate : NodeId)
  | object (entries : List (String × NodeId))
  | array (elements : List NodeId)
  | functionDecl (name : String) (params : List String) (body : List NodeId)
  | functionExpr (name : Option String) (params : List String) (body : List NodeId)
  | arrow (params : List String) (body : NodeId)
  | exprStmt (expression : NodeId)
  | varDecl (kind name : String) (init : Option NodeId)
  | block (body : List NodeId)
  | ifStmt (test consequent : NodeId) (alternate : Option NodeId)
  | returnStmt (argument : Option NodeId)
  | forStmt (init test update : Option NodeId) (body : NodeId)
  | tryStmt (block : NodeId) (handler : Option (String × NodeId)) (finalizer : Option NodeId)
  | program (body : List NodeId)

namespace Form

def build : Form → Build NodeId
  | node type describe _ => Build.node type describe
  | ident name => Build.ident name
  | this => Build.this
  | literal value => Build.literal value
  | number value => Build.number value
  | member base property => Build.member base property
  | computedMember base property => Build.computedMember base property
  | path dotted => Build.path dotted
  | call callee args => Build.call callee args
  | new callee args => Build.new callee args
  | methodCall base method args => Build.methodCall base method args
  | assign left right => Build.assign left right
  | binary op left right => Build.binary op left right
  | logical op left right => Build.logical op left right
  | update op argument => Build.update op argument
  | unary op argument => Build.unary op argument
  | conditional test consequent alternate => Build.conditional test consequent alternate
  | object entries => Build.object entries
  | array elements => Build.array elements
  | functionDecl name params body => Build.functionDecl name params body
  | functionExpr name params body => Build.functionExpr name params body
  | arrow params body => Build.arrow params body
  | exprStmt expression => Build.exprStmt expression
  | varDecl kind name init => Build.varDecl kind name init
  | block body => Build.block body
  | ifStmt test consequent alternate => Build.ifStmt test consequent alternate
  | returnStmt argument => Build.returnStmt argument
  | forStmt init test step body => Build.forStmt init test step body
  | tryStmt body handler finalizer => Build.tryStmt body handler finalizer
  | program body => Build.program body

/-- The nodes that are passed as children. -/
def children : Form → List NodeId
  | node .. | ident _ | this | literal _ | number _ | path _ => []
  | member base _ => [base]
  | computedMember base property => [base, property]
  | call callee args | new callee args => callee :: args
  | methodCall base _ args => base :: args
  | assign left right | binary _ left right | logical _ left right => [left, right]
  | update _ argument | unary _ argument => [argument]
  | conditional test consequent alternate => [test, consequent, alternate]
  | object entries => entries.map (·.2)
  | array elements => elements
  | functionDecl _ _ body | functionExpr _ _ body => body
  | arrow _ body => [body]
  | exprStmt expression => [expression]
  | varDecl _ _ init => init.toList
  | block body | program body => body
  | ifStmt test consequent alternate => test :: consequent :: alternate.toList
  | returnStmt argument => argument.toList
  | forStmt init test step body => init.toList ++ (test.toList ++ (step.toList ++ [body]))
  | tryStmt body handler finalizer =>
    body :: ((handler.map (·.2)).toList ++ finalizer.toList)

end Form

/-! ## What the forms hang -/

variable {ids : List NodeId}

theorem offers_ident (name : String) : Offers (ident name) [] :=
  Plants.offers (plants_node fun _ => rfl)

theorem grows_ident (name : String) : Grows (ident name) [] :=
  Plants.grows (plants_node fun _ => rfl)

theorem grows_this : Grows this [] := Plants.grows (plants_node fun _ => rfl)

theorem grows_literal (value : String) : Grows (literal value) [] :=
  Plants.grows (plants_node fun _ => rfl)

theorem grows_number (value : Int) : Grows (number value) [] :=
  Plants.grows (plants_node fun _ => rfl)

theorem grows_computedMember (a b : NodeId) : Grows (computedMember a b) [a, b] :=
  ((HangsAll.child a "object").seq (.child b "property")).grows fun _ => rfl

/-- The name of the property is made first, so it is older than the member. -/
theorem grows_member (a : NodeId) (property : String) : Grows (member a property) [a] := by
  refine (grows_ident property).bind fun id => ?_
  have hkids := (HangsAll.child a "object").seq (.child id "property")
  exact (hkids.grows fun _ => rfl).perm (.swap ..)

theorem grows_members {root : Build NodeId} (h : Grows root ids) (properties : List String) :
    Grows (do members (← root) properties) ids := by
  induction properties generalizing root with
  | nil => exact h
  | cons property rest ih =>
    have hmember : Grows (do member (← root) property) (ids ++ []) :=
      h.bind fun id => grows_member id property
    rw [List.append_nil] at hmember
    exact ih hmember

theorem grows_path (dotted : String) : Grows (path dotted) [] := by
  unfold path
  split
  · exact grows_ident ""
  · next first rest _ =>
    by_cases h : first == "this"
    · simp only [h, if_true]
      exact grows_members grows_this rest
    · simp only [h]
      exact grows_members (grows_ident first) rest

theorem grows_invocation (type : NodeType) (a : NodeId) (args : List NodeId) :
    Grows (invocation type a args) (a :: args) :=
  ((HangsAll.child a "callee").seq (.indexedChildren args "arguments")).grows fun _ => rfl

theorem grows_methodCall (a : NodeId) (method : String) (args : List NodeId) :
    Grows (methodCall a method args) (a :: args) :=
  (grows_member a method).bind fun id => grows_invocation .callExpression id args

theorem grows_operator (type : NodeType) (op : String) (a b : NodeId) :
    Grows (operator type op a b) [a, b] :=
  ((HangsAll.child a "left").seq (.child b "right")).grows fun _ => rfl

theorem offers_property (entry : String × NodeId) : Offers (property entry) [entry.2] :=
  ((HangsAll.attach (offers_ident entry.1) "key" "").seq (.child entry.2 "value")).offers
    fun _ => rfl

theorem grows_object (entries : List (String × NodeId)) :
    Grows (object entries) (entries.map (·.2)) := by
  have heach := HangsAll.each offers_property entries "properties" (fun _ => "") 0
  simp only [← properties_eq, ← List.map_eq_flatMap] at heach
  exact heach.grows fun _ => rfl

theorem grows_block (ids : List NodeId) : Grows (block ids) ids :=
  (HangsAll.children ids "body").grows fun _ => rfl

theorem HangsAll.parameters (names : List String) :
    HangsAll (fun parent => Build.parameters parent 0 names) [] := by
  have heach := HangsAll.each offers_ident names "params" indexArguments 0
  have hnone : names.flatMap (fun _ => ([] : List NodeId)) = [] := by simp
  simpa only [parameters_eq, hnone] using heach

theorem grows_function (type : NodeType) (name : Option String) (params : List String)
    (body : NodeId) : Grows (function type name params body) [body] := by
  have hkids := (HangsAll.optional offers_ident name "id").seq
    ((HangsAll.parameters params).seq (.child body "body"))
  cases name
  all_goals exact hkids.grows fun _ => rfl

theorem grows_blockFunction (type : NodeType) (name : Option String) (params : List String)
    (ids : List NodeId) : Grows (do function type name params (← block ids)) ids := by
  have hblock : Grows (do function type name params (← block ids)) (ids ++ []) :=
    (grows_block ids).bind fun id => grows_function type name params id
  rwa [List.append_nil] at hblock

theorem offers_declarator (name : String) (init : Option NodeId) :
    Offers (declarator name init) init.toList :=
  ((HangsAll.attach (offers_ident name) "id" "").seq (.childIf init "init")).offers fun _ => rfl

theorem offers_clause (handler : String × NodeId) : Offers (clause handler) [handler.2] :=
  ((HangsAll.attach (offers_ident handler.1) "param" "").seq (.child handler.2 "body")).offers
    fun _ => rfl

theorem grows_tryStmt (a : NodeId) (handler : Option (String × NodeId))
    (finalizer : Option NodeId) : Grows (tryStmt a handler finalizer)
      (a :: ((handler.map (·.2)).toList ++ finalizer.toList)) := by
  have hkids := (HangsAll.child a "block").seq
    ((HangsAll.optional offers_clause handler "handler").seq (.childIf finalizer "finalizer"))
  cases handler
  all_goals exact hkids.grows fun _ => rfl

/-- Each form hangs the children it is given and the nodes it makes, except for the last. -/
theorem Form.grows (form : Form) : Grows form.build form.children := by
  cases form with
  | node type describe keeps => exact (plants_node keeps).grows
  | ident name => exact grows_ident name
  | this => exact grows_this
  | literal value => exact grows_literal value
  | number value => exact grows_number value
  | member base property => exact grows_member base property
  | computedMember base property => exact grows_computedMember base property
  | path dotted => exact grows_path dotted
  | call callee args => exact grows_invocation _ callee args
  | new callee args => exact grows_invocation _ callee args
  | methodCall base method args => exact grows_methodCall base method args
  | assign left right => exact grows_operator _ "=" left right
  | binary op left right => exact grows_operator _ op left right
  | logical op left right => exact grows_operator _ op left right
  | update op argument => exact (HangsAll.child argument "argument").grows fun _ => rfl
  | unary op argument => exact (HangsAll.child argument "argument").grows fun _ => rfl
  | conditional test consequent alternate =>
    exact ((HangsAll.child test "test").seq ((HangsAll.child consequent "consequent").seq
      (.child alternate "alternate"))).grows fun _ => rfl
  | object entries => exact grows_object entries
  | array elements => exact (HangsAll.indexedChildren elements "elements").grows fun _ => rfl
  | functionDecl name params body => exact grows_blockFunction _ (some name) params body
  | functionExpr name params body => exact grows_blockFunction _ name params body
  | arrow params body => exact grows_function _ none params body
  | exprStmt expression =>
    exact (HangsAll.child expression "expression").grows fun _ => rfl
  | varDecl kind name init =>
    exact (HangsAll.attach (offers_declarator name init) "declarations" "").grows fun _ => rfl
  | block body => exact grows_block body
  | ifStmt test consequent alternate =>
    exact ((HangsAll.child test "test").seq ((HangsAll.child consequent "consequent").seq
      (.childIf alternate "alternate"))).grows fun _ => rfl
  | returnStmt argument => exact (HangsAll.childIf argument "argument").grows fun _ => rfl
  | forStmt init test step body =>
    exact ((HangsAll.childIf init "init").seq ((HangsAll.childIf test "test").seq
      ((HangsAll.childIf step "update").seq (.child body "body")))).grows fun _ => rfl
  | tryStmt body handler finalizer => exact grows_tryStmt body handler finalizer
  | program body => exact (HangsAll.children body "body").grows fun _ => rfl

/-! ## Calls -/

/-- Something a builder is asked, other than for one edge of any kind. -/
inductive Call where
  | line (line : Nat)
  | make (form : Form)
  | cfg (source target : NodeId)
  | pdg (producer consumer : NodeId) (name : String)
  | cg (call definition : NodeId)
  | erdg (registration handler selector : NodeId)
  | childOf (parent : NodeId) (relationType : String)
  | bodyOf (function : NodeId)

namespace Call

def run : Call → Build (Option NodeId)
  | line n => do Build.setLine n; return none
  | make form => return some (← form.build)
  | cfg source target => do Build.cfg source target; return none
  | pdg producer consumer name => do Build.pdg producer consumer name; return none
  | cg call definition => do Build.cg call definition; return none
  | erdg registration handler selector => do
    Build.erdg registration handler selector
    return none
  | childOf parent relationType => Build.childOf? parent relationType
  | bodyOf function => Build.bodyOf? function

/-- The nodes that are passed. -/
def arguments : Call → List NodeId
  | line _ => []
  | make form => form.children
  | cfg source target => [source, target]
  | pdg producer consumer _ => [producer, consumer]
  | cg call definition => [call, definition]
  | erdg registration handler selector => [registration, handler, selector]
  | childOf parent _ => [parent]
  | bodyOf function => [function]

/-- The nodes that are passed as children. -/
def children : Call → List NodeId
  | make form => form.children
  | _ => []

/-- The call returns a node that it makes, not one that it finds. -/
def makes : Call → Bool
  | make _ => true
  | _ => false

end Call

/-- The builder, with what was returned by the calls so far and what was passed to them. -/
structure Session where
  builder : Builder := {}
  returned : List NodeId := []
  /-- Those of the returned nodes that were made by the call that returned them. -/
  made : List NodeId := []
  /-- What was passed as a child, one entry for each time. -/
  passed : List NodeId := []

namespace Session

variable {s : Session}

def step (s : Session) (call : Call) : Session where
  builder := (call.run.run s.builder).2
  returned := s.returned ++ (call.run.run s.builder).1.toList
  made := s.made ++ if call.makes then (call.run.run s.builder).1.toList else []
  passed := s.passed ++ call.children

def after (s : Session) (calls : List Call) : Session := calls.foldl step s

/-- Every node that is passed was returned by an earlier call. -/
def Provides (s : Session) : List Call → Prop
  | [] => True
  | call :: rest => (∀ id ∈ call.arguments, id ∈ s.returned) ∧ (s.step call).Provides rest

instance Provides.decidable (s : Session) : (calls : List Call) → Decidable (s.Provides calls)
  | [] => inferInstanceAs (Decidable True)
  | call :: rest =>
    have := Provides.decidable (s.step call) rest
    inferInstanceAs (Decidable (_ ∧ _))

/-- What holds between any two calls. Each node is either a result or hung by the call that
made it, and all else that is hung was passed as a child. -/
structure Valid (s : Session) : Prop where
  sound : s.builder.Sound
  returned : ∀ id ∈ s.returned, s.builder.store.hasNode id = true
  hung : ∃ inner, s.builder.store.hung.Perm (s.passed ++ inner) ∧
    (s.made ++ inner).Perm (since {} s.builder)

theorem valid_start : Valid {} where
  sound := by
    refine ⟨⟨Nat.one_pos, rfl⟩, by decide, ?_⟩
    exact Store.astAcyclic_of_lt nofun
  returned := nofun
  hung := ⟨[], .refl _, .refl _⟩

/-- A call that leaves the tree as it is, and finds a node or none. -/
theorem Valid.keep (h : s.Valid) {call : Call} (hc : call.children = []) (hm : call.makes = false)
    (hsound : (s.step call).builder.Sound)
    (hnext : (s.step call).builder.nextId = s.builder.nextId)
    (hhung : (s.step call).builder.store.hung = s.builder.store.hung)
    (hfound : ∀ id ∈ (call.run.run s.builder).1, s.builder.store.hasNode id = true) :
    (s.step call).Valid where
  sound := hsound
  returned := by
    have hkeep : ∀ id, s.builder.store.hasNode id = true →
        (s.step call).builder.store.hasNode id = true :=
      fun id => h.sound.hasNode_mono hsound (Nat.le_of_eq hnext.symm)
    refine List.forall_mem_append.mpr ⟨fun id hid => hkeep id (h.returned id hid), ?_⟩
    exact fun id hid => hkeep id (hfound id (Option.mem_toList.mp hid))
  hung := by
    have hsame : since {} (s.step call).builder = since {} s.builder := by
      rw [since, since, hnext]
    rw [hhung, hsame, step, hc, hm]
    simpa using h.hung

/-- An edge beside the tree leads from one node that is passed to another. -/
theorem Valid.link (h : s.Valid) {call : Call} {e : Edge} {rest : List NodeId}
    (hc : call.children = []) (hm : call.makes = false)
    (hrun : call.run.run s.builder =
      (none, { s.builder with store := s.builder.store.insertEdge e }))
    (hargs : call.arguments = e.source :: e.target :: rest) (hr : e.relation ≠ .ast)
    (ha : ∀ id ∈ call.arguments, id ∈ s.returned) : (s.step call).Valid := by
  have hbuilder : (s.step call).builder =
      { s.builder with store := s.builder.store.insertEdge e } := congrArg Prod.snd hrun
  rw [hargs, List.forall_mem_cons, List.forall_mem_cons] at ha
  refine h.keep hc hm ?_ ?_ ?_ (by rw [hrun]; nofun)
  · rw [hbuilder]
    exact h.sound.insertEdge hr (h.returned _ ha.1) (h.returned _ ha.2.1)
  · rw [hbuilder]
  · rw [hbuilder]
    exact Store.hung_insertEdge _ hr

/-- A node that is found is the end of an edge. -/
theorem Valid.look (h : s.Valid) {parent id : NodeId} {relationType : String}
    (hid : id ∈ ((childOf? parent relationType).run s.builder).1) :
    s.builder.store.hasNode id = true := by
  change (((s.builder.store.outgoing parent (some .ast)).find?
    (·.relationType == relationType)).map (·.target)) = some id at hid
  obtain ⟨e, he, rfl⟩ := Option.map_eq_some_iff.mp hid
  exact (h.sound.closed e (Store.mem_outgoing.mp (List.mem_of_find?_eq_some he)).1).2

/-- A form is built from the nodes that are passed. -/
theorem Valid.make (h : s.Valid) {form : Form} (hg : ∀ id ∈ form.children, id ∈ s.returned) :
    (s.step (.make form)).Valid := by
  have hgiven := fun id hid => h.returned id (hg id hid)
  obtain ⟨hsound, hle, inner, hhung, hinner⟩ := form.grows s.builder h.sound hgiven
  obtain ⟨inner₀, hhung₀, hinner₀⟩ := h.hung
  have hkeep : ∀ id ∈ s.returned, (form.build.run s.builder).2.store.hasNode id = true :=
    fun id hid => h.sound.hasNode_mono hsound hle (h.returned id hid)
  -- What earlier calls hung by themselves stays, and this one adds its own.
  refine ⟨hsound, List.forall_mem_append.mpr ⟨hkeep, ?_⟩, inner₀ ++ inner, ?_, ?_⟩
  · exact List.forall_mem_singleton.mpr
      (h.sound.hasNode_of_since hsound (hinner.subset List.mem_cons_self))
  · refine List.perm_iff_count.mpr fun id => (hhung.count_eq id).trans ?_
    have hcount := hhung₀.count_eq id
    change _ = List.count id (s.passed ++ form.children ++ (inner₀ ++ inner))
    simp only [List.count_append] at hcount ⊢
    omega
  · change (s.made ++ [(form.build.run s.builder).1] ++ (inner₀ ++ inner)).Perm
      (since {} (form.build.run s.builder).2)
    rw [← since_append (b := {}) h.sound.positive hle]
    refine .trans ?_ (hinner₀.append hinner)
    refine List.perm_iff_count.mpr fun id => ?_
    simp only [List.count_append, List.count_cons, List.count_nil]
    omega

theorem Valid.step (h : s.Valid) {call : Call} (ha : ∀ id ∈ call.arguments, id ∈ s.returned) :
    (s.step call).Valid := by
  cases call with
  | line n =>
    have hsound : Sound { s.builder with line := n } :=
      ⟨⟨h.sound.positive, h.sound.ids⟩, h.sound.closed, h.sound.acyclic⟩
    exact h.keep rfl rfl hsound rfl rfl nofun
  | make form => exact h.make ha
  | cfg source target => exact h.link rfl rfl rfl rfl (by nofun) ha
  | pdg producer consumer name => exact h.link rfl rfl rfl rfl (by nofun) ha
  | cg call definition => exact h.link rfl rfl rfl rfl (by nofun) ha
  | erdg registration handler selector => exact h.link rfl rfl rfl rfl (by nofun) ha
  | childOf parent relationType => exact h.keep rfl rfl h.sound rfl rfl fun id => h.look
  | bodyOf function => exact h.keep rfl rfl h.sound rfl rfl fun id => h.look

theorem Valid.after (h : s.Valid) {calls : List Call} (hp : s.Provides calls) :
    (s.after calls).Valid := by
  induction calls generalizing s with
  | nil => exact h
  | cons call rest ih => exact ih (h.step hp.1) hp.2

/-- The tree is a forest when no node is passed as a child twice, and none that was hung before
by the call that made it. -/
theorem Valid.astForest_iff (h : s.Valid) :
    s.builder.store.AstForest ↔ s.passed.Nodup ∧ ∀ id ∈ s.passed, id ∈ s.made := by
  obtain ⟨inner, hhung, hinner⟩ := h.hung
  have hnodup : (s.made ++ inner).Nodup := hinner.nodup_iff.mpr List.nodup_range'
  obtain ⟨-, hinner_nodup, hapart⟩ := List.nodup_append.mp hnodup
  -- A node that was passed is hung, so it exists: it is a result, or it was hung before.
  have hknown : ∀ id ∈ s.passed, id ∈ s.made ∨ id ∈ inner := by
    intro id hid
    have hnode := h.sound.closed.hasNode_of_hung (hhung.mem_iff.mpr (List.mem_append_left _ hid))
    exact List.mem_append.mp (hinner.mem_iff.mpr (mem_since.mpr (h.sound.hasNode_iff.mp hnode)))
  rw [Store.astForest_iff, ← Store.hung, hhung.nodup_iff, List.nodup_append]
  constructor
  · rintro ⟨hpassed, -, hdis⟩
    exact ⟨hpassed, fun id hid => (hknown id hid).resolve_right fun hi => hdis id hid id hi rfl⟩
  · rintro ⟨hpassed, hmade⟩
    exact ⟨hpassed, hinner_nodup, fun id hid => hapart id (hmade id hid)⟩

/-- Whatever the calls are, they leave behind a graph that is numbered in the order in which its
nodes were made, and in which every walk ends. -/
theorem after_wellFormed (calls : List Call) (h : Provides {} calls) :
    let s := after {} calls
    s.builder.store.nodes.toList.map (·.id) = List.range' 1 s.builder.store.nodeCount ∧
      (∀ id ∈ s.returned, s.builder.store.hasNode id = true) ∧ s.builder.store.Closed ∧
      s.builder.store.AstAcyclic ∧ s.builder.store.WalksEnd ∧
      (s.builder.store.AstForest ↔ s.passed.Nodup ∧ ∀ id ∈ s.passed, id ∈ s.made) := by
  intro s
  have hvalid : s.Valid := valid_start.after h
  have hcount : s.builder.store.nodeCount = s.builder.nextId - 1 := by
    have hlength := congrArg List.length hvalid.sound.ids
    rwa [List.length_map, Array.length_toList, List.length_range'] at hlength
  refine ⟨?_, hvalid.returned, hvalid.sound.closed, hvalid.sound.acyclic, ?_,
    hvalid.astForest_iff⟩
  · rw [hcount, hvalid.sound.ids]
  · exact Store.walksEnd hvalid.sound.closed hvalid.sound.acyclic

/-- Settings that are stored in a function, beside a try statement: ids rise and fall along the
edges. The body of the function is looked up, but not passed as a child. -/
def settingsCalls : List Call :=
  [.line 3, .make (.ident "a"), .make (.object [("url", 1)]), .make (.path "Ext.ajaxSettings"),
    .make (.assign 7 2), .make (.exprStmt 8), .make (.functionExpr (some "f") ["x"] [9]),
    .bodyOf 11, .make (.varDecl "var" "g" (some 11)), .make (.block []), .make (.block []),
    .make (.tryStmt 17 (some ("e", 18)) none), .pdg 9 10 "x", .make (.program [14, 19])]

theorem after_settingsCalls :
    Provides {} settingsCalls ∧ (after {} settingsCalls).builder.store.nodeCount = 22 ∧
      (after {} settingsCalls).builder.store.Closed ∧
      (after {} settingsCalls).builder.store.AstAcyclic ∧
      (after {} settingsCalls).builder.store.WalksEnd ∧
      (after {} settingsCalls).builder.store.AstForest := by
  have hcalls : Provides {} settingsCalls ∧
      (after {} settingsCalls).builder.store.nodeCount = 22 ∧
      (after {} settingsCalls).passed.Nodup ∧
      ∀ id ∈ (after {} settingsCalls).passed, id ∈ (after {} settingsCalls).made := by
    decide +kernel
  obtain ⟨hprovides, hcount, hpassed⟩ := hcalls
  obtain ⟨-, -, hclosed, hacyclic, hwalks, hforest⟩ := after_wellFormed settingsCalls hprovides
  exact ⟨hprovides, hcount, hclosed, hacyclic, hwalks, hforest.mpr hpassed⟩

/-- The body of a function is made inside the call that makes the function, and becomes the body
of a program too. -/
def sharedBodyCalls : List Call :=
  [.make (.functionExpr none [] []), .bodyOf 2, .make (.program [1])]

/-- It is passed as a child once, and yet has two parents. Nor are the ids in order if a node is
described under an id of its own. -/
theorem after_sharedBodyCalls :
    (Provides {} sharedBodyCalls ∧ (after {} sharedBodyCalls).passed.Nodup ∧
      ¬ (after {} sharedBodyCalls).builder.store.AstForest) ∧
    ((Build.node .identifier ({ · with id := 7 })).run {}).2.store.nodes.toList.map (·.id) =
      [7] := by
  decide +kernel

end Session

end RequestFlow.Build

/-
What a trace leads to, read off the graph of a page without `this`.
`Service.Leads` says what a name at a statement leads to: texts to show, and
names at statements to trace on. The producers of a name are those that data
flows from, and a name in the place of a callee leads to the function that call
edges lead to.

What a producer leads to can be given otherwise, so that traces which treat call
sites in another way have their leads as well.
-/
import Mathlib.Logic.Relation
import RequestFlow.Proofs.Trace.Questions

namespace RequestFlow

/-- What a trace may come to: a name at a statement, or a text with its location. -/
inductive Lead where
  | pair (name : String) (context : NodeId)
  | text (code location : String)

namespace Service

variable (g : Service) (builtins : Builtins)

/-- Data flows from `producer` to `context` under that name. -/
def Produces (name : String) (context : NodeId) (producer : Node) : Prop :=
  producer.type ≠ .program ∧ ∃ edge ∈ g.store.edges, edge.relation = .pdg ∧
    edge.target = context ∧ Text.trim edge.arguments = name ∧
    g.store.node? edge.source = some producer

/-- One name that a statement mentions: its definition when it is called, or else itself. -/
inductive MentionLead (name : String) (producer : Node) : String × NodeId → Lead → Prop
  | back {other origin} (hn : other ≠ name) (hb : builtins.contains other = false)
    (hc : ∀ definition, ¬ g.Calls origin definition) :
    MentionLead name producer (other, origin) (.pair other producer.id)
  | definition {other origin definition rendered} (hn : other ≠ name)
    (hb : builtins.contains other = false) (hc : g.Calls origin definition)
    (hr : g.renderNode definition = .ok rendered) :
    MentionLead name producer (other, origin)
      (.text (Slice.definitionMark ++ " " ++ rendered.code) definition.location)

/-- A call site inside `function` that passes the parameter on under its own name. -/
def PassesOn (name : String) (function : Node) (site : CallSite) (argument : Argument) : Prop :=
  argument.kind = .identifier ∧ argument.code = name ∧ g.isBelow site.call function.id = .ok true

/-- One name in an argument that is not a literal, at the statement of the call. -/
inductive ArgumentLead (argument : Argument) (statement : Node) : Lead → Prop
  | back {other origin} (hk : argument.kind ≠ .literal)
    (hm : (other, origin) ∈ argument.identifiers.entries) (hb : builtins.contains other = false) :
    ArgumentLead argument statement (.pair other statement.id)

/-- One call site that binds the name: the argument, and the names in it where it is traced. -/
inductive BindingLead (traced : Argument → Prop) (name : String) (site : CallSite) : Lead → Prop
  | shown {argument} (ha : site.get? name = some argument) :
    BindingLead traced name site
      (.text (name ++ " " ++ Slice.invocationMark ++ " " ++ Trace.argumentText site.call argument)
        site.location)
  | argument {argument statement lead} (ha : site.get? name = some argument)
    (ht : traced argument) (hs : g.statement site.call = .ok statement)
    (hl : ArgumentLead builtins argument statement lead) : BindingLead traced name site lead

/-- One call site of `function`. A call that passes the parameter on is not followed. -/
def SiteLead (name : String) (function : Node) (site : CallSite) : Lead → Prop :=
  g.BindingLead builtins (fun argument => ¬ g.PassesOn name function site argument) name site

/-- One producer: an ordinary statement with the names it mentions, or a function with the call
sites that bind the name. -/
inductive ProducerLead (name : String) (producer : Node) : Lead → Prop
  | statement {rendered} (ho : ∀ function, ¬ g.StandsFor producer function)
    (hr : g.renderNode producer = .ok rendered) :
    ProducerLead name producer (.text rendered.code producer.location)
  | mention {rendered mention lead} (ho : ∀ function, ¬ g.StandsFor producer function)
    (hr : g.renderNode producer = .ok rendered) (hm : mention ∈ rendered.identifiers.entries)
    (hl : g.MentionLead builtins name producer mention lead) : ProducerLead name producer lead
  | parameter {function params} (ho : g.StandsFor producer function)
    (hp : g.parameters function.id = .ok params) (hn : name ∈ params) :
    ProducerLead name producer (.text (name ++ " = " ++ Slice.parameterMark) producer.location)
  | site {function params sites site lead} (ho : g.StandsFor producer function)
    (hp : g.parameters function.id = .ok params) (hn : name ∈ params)
    (hs : g.callSites function.id = .ok sites) (hm : site ∈ sites)
    (hl : g.SiteLead builtins name function site lead) : ProducerLead name producer lead

/-- The call site is one of `function`, for which `producer` stands, and the name is a parameter. -/
structure Binds (name : String) (producer function : Node) (site : CallSite) : Prop where
  owner : g.StandsFor producer function
  parameter : ∃ params, g.parameters function.id = .ok params ∧ name ∈ params
  site : ∃ sites, g.callSites function.id = .ok sites ∧ site ∈ sites

variable {g builtins} in
theorem Binds.lead {name : String} {producer function : Node} {site : CallSite} {lead : Lead}
    (h : g.Binds name producer function site) (hl : g.SiteLead builtins name function site lead) :
    g.ProducerLead builtins name producer lead := by
  obtain ⟨params, hp, hn⟩ := h.parameter
  obtain ⟨sites, hs, hm⟩ := h.site
  exact .site h.owner hp hn hs hm hl

/-- What a name at a statement leads to in one step. -/
def Leads (pair : String × NodeId) (lead : Lead) : Prop :=
  ∃ producer, g.Produces pair.1 pair.2 producer ∧ g.ProducerLead builtins pair.1 producer lead

variable (own : String → Node → Lead → Prop)

/-- What a name at a statement leads to in one step, where a producer leads to what `own` says. -/
def LeadsOver (pair : String × NodeId) (lead : Lead) : Prop :=
  ∃ producer, g.Produces pair.1 pair.2 producer ∧ own pair.1 producer lead

/-- One pair leads to another in any number of such steps. -/
def ReachesOver : String × NodeId → String × NodeId → Prop :=
  Relation.ReflTransGen fun pair next => g.LeadsOver own pair (.pair next.1 next.2)

variable {g} in
/-- The producers that the graph lists are those that data flows from. -/
theorem mem_producers {name : String} {context : NodeId} {declarations : Bool} {producers : List Node}
    (h : g.producers name context declarations = .ok producers) {producer : Node} :
    producer ∈ producers ∧ producer.type ≠ .program ↔ g.Produces name context producer ∧
      (declarations = true → producer.type = .variableDeclaration) := by
  obtain ⟨edges, hedges, h⟩ := exists_of_bind h
  obtain ⟨nodes, hnodes, h⟩ := exists_of_bind h
  cases h
  obtain ⟨-, rfl⟩ := (incoming_agree (Alike.self g) context
    (by simp : Relation.pdg ≠ .pointsTo)).of_ok hedges
  have hstored : ∀ {id node}, g.node id = .ok node → g.store.node? id = some node :=
    fun hn => ((node_agree (Alike.self g) nofun).of_ok hn).2
  simp only [List.mem_filter, Bool.or_eq_true, Bool.not_eq_true', beq_iff_eq, Produces,
    mem_mapM hnodes, Store.mem_incoming]
  constructor
  · rintro ⟨⟨⟨edge, ⟨⟨he, hr, ht⟩, ha⟩, hn⟩, hd⟩, hne⟩
    exact ⟨⟨hne, edge, he, hr, ht, ha, hstored hn⟩, fun h => hd.resolve_left (by simp [h])⟩
  · rintro ⟨⟨hne, edge, he, hr, ht, ha, hn⟩, hd⟩
    have hin : edge ∈ (g.store.incoming context (some .pdg)).filter (Text.trim ·.arguments == name) :=
      List.mem_filter.mpr ⟨Store.mem_incoming.mpr ⟨he, hr, ht⟩, by simpa using ha⟩
    obtain ⟨i, hi⟩ := List.mem_iff_getElem?.mp hin
    obtain ⟨node, -, hnode⟩ := getElem?_mapM hnodes hi
    cases hn.symm.trans (hstored hnode)
    refine ⟨⟨⟨edge, ⟨⟨he, hr, ht⟩, ha⟩, hnode⟩, ?_⟩, hne⟩
    cases declarations with
    | false => exact .inl rfl
    | true => exact .inr (hd rfl)

end Service

/-- No scope, or that of a call. -/
def IsScope (scope : String) : Prop := scope = "" ∨ ∃ call, scope = callScope call

theorem isScope_callScope (call : NodeId) : IsScope (callScope call) := .inr ⟨call, rfl⟩

/-- Code as it stands in a slice. -/
def TraceOptions.laidOut (options : TraceOptions) (code : String) : String :=
  if options.layout then Layout.formatSlice code else code

/-- The slice shows the text, behind a scope tag or without one. -/
def Slice.Shows (slice : Slice) (options : TraceOptions) (text : String) : Prop :=
  ∃ scope, IsScope scope ∧ slice.code = options.laidOut (inScope scope text)

/-- No node stands for `this`. -/
def Store.WithoutThis (store : Store) : Prop :=
  ∀ node ∈ store.nodes, node.type ≠ .thisExpression ∧
    (node.type = .identifier → node.code ≠ thisIdentifier)

instance {store : Store} : Decidable store.WithoutThis :=
  inferInstanceAs (Decidable (∀ node ∈ store.nodes, _))

theorem Service.Mentions.ne_this {g : Service} (hw : g.store.WithoutThis) {entry : String × NodeId}
    (hm : g.Mentions entry) : entry.1 ≠ thisIdentifier := by
  obtain ⟨node, hn, h | h⟩ := hm
  · rw [← h.2]
    exact (hw node (Store.node?_eq_some.mp hn).1).2 h.1
  · exact absurd h.1 (hw node (Store.node?_eq_some.mp hn).1).1

end RequestFlow

/-
Terms of the language that a builder offers, how they are built and how they are
printed. Rendering what was built for a term gives back what the printer writes,
whatever else stands in the graph: only the term counts, not the ids of its nodes,
their lines or what was built before and after it.
-/
import RequestFlow.Proofs.Graph.Tree
import RequestFlow.Proofs.Syntax.Built

namespace RequestFlow

/-- An expression, a statement, a function or a program. -/
inductive Term where
  | ident (name : String)
  | this
  | literal (value : String)
  | number (value : Int)
  | member (object : Term) (property : String)
  | computedMember (object property : Term)
  | path (dotted : String)
  | call (callee : Term) (args : List Term)
  | new (callee : Term) (args : List Term)
  | methodCall (object : Term) (method : String) (args : List Term)
  | assign (left right : Term)
  | binary (op : String) (left right : Term)
  | logical (op : String) (left right : Term)
  | update (op : String) (argument : Term)
  | unary (op : String) (argument : Term)
  | conditional (test consequent alternate : Term)
  | object (entries : List (String × Term))
  | array (elements : List Term)
  | functionDecl (name : String) (params : List String) (body : List Term)
  | functionExpr (name : Option String) (params : List String) (body : List Term)
  | arrow (params : List String) (body : Term)
  | exprStmt (expression : Term)
  | varDecl (kind name : String) (init : Option Term)
  | block (body : List Term)
  | ifStmt (test consequent : Term) (alternate : Option Term)
  | returnStmt (argument : Option Term)
  | forStmt (init test update : Option Term) (body : Term)
  | tryStmt (block : Term) (handler : Option (String × Term)) (finalizer : Option Term)
  | program (body : List Term)
  /-- The term with its first nodes on that line. -/
  | atLine (line : Nat) (term : Term)
  /-- The term, and what is built next on that line. -/
  | thenLine (term : Term) (line : Nat)

namespace Term

/-! ## Building -/

mutual

/-- Builds a term: its parts from left to right, then the form itself. -/
def build : Term → Build NodeId
  | ident name => Build.ident name
  | this => Build.this
  | literal value => Build.literal value
  | number value => Build.number value
  | member base property => do Build.member (← base.build) property
  | computedMember base property => do Build.computedMember (← base.build) (← property.build)
  | path dotted => Build.path dotted
  | call callee args => do Build.call (← callee.build) (← buildAll args)
  | new callee args => do Build.new (← callee.build) (← buildAll args)
  | methodCall base method args => do
    Build.methodCall (← base.build) method (← buildAll args)
  | assign left right => do Build.assign (← left.build) (← right.build)
  | binary op left right => do Build.binary op (← left.build) (← right.build)
  | logical op left right => do Build.logical op (← left.build) (← right.build)
  | update op argument => do Build.update op (← argument.build)
  | unary op argument => do Build.unary op (← argument.build)
  | conditional test consequent alternate => do
    Build.conditional (← test.build) (← consequent.build) (← alternate.build)
  | object entries => do Build.object (← buildPairs entries)
  | array elements => do Build.array (← buildAll elements)
  | functionDecl name params body => do Build.functionDecl name params (← buildAll body)
  | functionExpr name params body => do Build.functionExpr name params (← buildAll body)
  | arrow params body => do Build.arrow params (← body.build)
  | exprStmt expression => do Build.exprStmt (← expression.build)
  | varDecl kind name init => do Build.varDecl kind name (← buildIf init)
  | block body => do Build.block (← buildAll body)
  | ifStmt test consequent alternate => do
    Build.ifStmt (← test.build) (← consequent.build) (← buildIf alternate)
  | returnStmt argument => do Build.returnStmt (← buildIf argument)
  | forStmt init test step body => do
    Build.forStmt (← buildIf init) (← buildIf test) (← buildIf step) (← body.build)
  | tryStmt body handler finalizer => do
    Build.tryStmt (← body.build) (← buildPairIf handler) (← buildIf finalizer)
  | program body => do Build.program (← buildAll body)
  | atLine line term => do
    Build.setLine line
    term.build
  | thenLine term line => do
    let id ← term.build
    Build.setLine line
    return id

def buildAll : List Term → Build (List NodeId)
  | [] => return []
  | term :: rest => return (← term.build) :: (← buildAll rest)

def buildIf : Option Term → Build (Option NodeId)
  | none => return none
  | some term => return some (← term.build)

def buildPair : String × Term → Build (String × NodeId)
  | (name, term) => return (name, ← term.build)

def buildPairs : List (String × Term) → Build (List (String × NodeId))
  | [] => return []
  | pair :: rest => return (← buildPair pair) :: (← buildPairs rest)

def buildPairIf : Option (String × Term) → Build (Option (String × NodeId))
  | none => return none
  | some pair => return some (← buildPair pair)

end

/-! ## Printing -/

/-- A value in double quotes, which is a literal. -/
def printValue (value : String) : Printed :=
  ⟨"\"" ++ String.ofList (value.toList.flatMap fun c =>
      if c = '"' ∨ c = '\\' then ['\\', c] else [c]) ++ "\"", [value], []⟩

/-- A literal. Only the text of an empty object stands in single quotes. -/
def printLiteral (value : String) : Printed :=
  if value = "\x7b\x7d" then ⟨"'\x7b\x7d'", ["'\x7b\x7d'"], []⟩ else printValue value

/-- A dotted path, which names what stands before its first dot. -/
def printPath (dotted : String) : Printed :=
  let root := dotted.toList.takeWhile (· != '.')
  ⟨dotted, [], [if root = "this".toList then thisIdentifier else String.ofList root]⟩

def printOperation (op : String) (left right : Printed) : Printed :=
  left ++ " " ++ (if op.isEmpty then "=" else op) ++ " " ++ right

/-- Words such as `typeof` stand apart from what follows them. -/
def printUnary (op : String) (argument : Printed) : Printed :=
  (if op.toList.all Char.isAlpha then op ++ " " else op) ++ argument

def printParams (params : List String) : Printed := .joined ", " (params.map .name)

def printFunction (short : Bool) (name : String) (params : List String) (body : List Printed) :
    Printed :=
  Printed.header name ++ printParams params ++ ") " ++ (Printed.block body).body short

def printDeclaration (kind name : String) (init : Option Printed) : Printed :=
  (if kind.isEmpty then "var" else kind) ++ " "
    ++ init.elim (.name name) (Printed.name name ++ " = " ++ ·)

def printProgram (statements : List Printed) : Printed :=
  if statements.isEmpty then "\x7b\x7d" else .joined "; " statements

mutual

/-- The text of a term with its literals and names; the short form leaves out the bodies of
functions. -/
def print (short : Bool) : Term → Printed
  | ident name => .name name
  | this => ⟨"this", [], [thisIdentifier]⟩
  | literal value => printLiteral value
  | number value => printValue (toString value)
  | member base property => base.print short ++ "." ++ property
  | computedMember base property =>
    base.print short ++ "[" ++ property.print short ++ "]"
  | path dotted => printPath dotted
  | call callee args => callee.print short ++ "(" ++ .joined ", " (printAll short args) ++ ")"
  | new callee args =>
    "new " ++ callee.print short ++ "(" ++ .joined ", " (printAll short args) ++ ")"
  | methodCall base method args =>
    base.print short ++ "." ++ method ++ "(" ++ .joined ", " (printAll short args) ++ ")"
  | assign left right => printOperation "=" (left.print short) (right.print short)
  | binary op left right => printOperation op (left.print short) (right.print short)
  | logical op left right => printOperation op (left.print short) (right.print short)
  | update op argument => argument.print short ++ op
  | unary op argument => printUnary op (argument.print short)
  | conditional test consequent alternate =>
    "(" ++ test.print short ++ ") ? " ++ consequent.print short ++ " : " ++ alternate.print short
  | object entries => "\x7b" ++ .joined ", " (printPairs short .property entries) ++ "\x7d"
  | array elements => "[" ++ .joined ", " (printAll short elements) ++ "]"
  | functionDecl name params body => printFunction short name params (printAll short body)
  | functionExpr name params body =>
    printFunction short (name.getD "") params (printAll short body)
  | arrow params body => "(" ++ printParams params ++ ") => " ++ (body.print short).body short
  | exprStmt expression => expression.print short
  | varDecl kind name init => printDeclaration kind name (printIf short init)
  | block body => .block (printAll short body)
  | ifStmt test consequent alternate =>
    "if (" ++ test.print short ++ ") " ++ (consequent.print short).inBraces
      ++ (printIf short alternate).elim {} (" else " ++ ·.inBraces)
  | returnStmt argument => (printIf short argument).elim "return" ("return " ++ ·)
  | forStmt init test step body =>
    "for (" ++ (printIf short init).getD {} ++ "; " ++ (printIf short test).getD {} ++ "; "
      ++ (printIf short step).getD {} ++ ") " ++ (body.print short).inBraces
  | tryStmt body handler finalizer =>
    "try " ++ (body.print short).inBraces
      ++ (printPairIf short .clause handler).elim {} (" " ++ ·)
      ++ (printIf short finalizer).elim {} (" finally " ++ ·.inBraces)
  | program body => printProgram (printAll short body)
  | atLine _ term => term.print short
  | thenLine term _ => term.print short

def printAll (short : Bool) : List Term → List Printed
  | [] => []
  | term :: rest => term.print short :: printAll short rest

def printIf (short : Bool) : Option Term → Option Printed
  | none => none
  | some term => some (term.print short)

def printPair (short : Bool) (text : String → Printed → Printed) : String × Term → Printed
  | (name, term) => text name (term.print short)

def printPairs (short : Bool) (text : String → Printed → Printed) :
    List (String × Term) → List Printed
  | [] => []
  | pair :: rest => printPair short text pair :: printPairs short text rest

def printPairIf (short : Bool) (text : String → Printed → Printed) :
    Option (String × Term) → Option Printed
  | none => none
  | some pair => some (printPair short text pair)

end

theorem printValue_eq (value : String) : printValue value = ⟨quote value, [value], []⟩ := by
  have hescape : ∀ s : List Char, quote.escape s =
      s.flatMap fun c => if c = '"' ∨ c = '\\' then ['\\', c] else [c] := by
    intro s
    induction s with
    | nil => rfl
    | cons c s ih =>
      rw [quote.escape, List.flatMap_cons, ih]
      split <;> rfl
  unfold printValue quote
  rw [hescape]
  ext : 1
  · apply String.toList_injective
    simp
  · rfl
  · rfl

/-! ## Built terms are rendered as they are printed -/

variable {short : Bool}

open Build

mutual

-- In each case the parts are built from left to right and then the form; `h` is what is known of
-- the parts by then, the last one outermost.
theorem build_prints : ∀ {P : Store → Nat → Prop} (t : Term), Prints short P t.build (t.print short)
  | _, ident name => by
    rw [build, print]
    exact prints_ident short name
  | _, this => by
    rw [build, print]
    exact prints_this
  | _, literal value => by
    rw [build, print, printLiteral, printValue_eq]
    exact prints_literal value
  | _, number value => by
    rw [build, print, printValue_eq]
    exact prints_number value
  | _, member base property => by
    rw [build, print]
    exact base.build_prints.bind fun _ => prints_member property fun _ _ h => h.2
  | _, computedMember base property => by
    rw [build, print]
    exact base.build_prints.bind fun _ => property.build_prints.bind fun _ =>
      prints_computedMember (fun _ _ h => h.1.2) fun _ _ h => h.2
  | _, path dotted => by
    rw [build, print]
    exact prints_path dotted
  | _, call callee args => by
    rw [build, print]
    exact callee.build_prints.bind fun _ => (buildAll_prints args).bind fun _ =>
      prints_call (fun _ _ h => h.1.2) fun _ _ h => h.2
  | _, new callee args => by
    rw [build, print]
    exact callee.build_prints.bind fun _ => (buildAll_prints args).bind fun _ =>
      prints_new (fun _ _ h => h.1.2) fun _ _ h => h.2
  | _, methodCall base method args => by
    rw [build, print]
    exact base.build_prints.bind fun _ => (buildAll_prints args).bind fun _ =>
      (prints_member method fun _ _ h => h.1.2).bind fun _ =>
        prints_call (fun _ _ h => h.2) fun _ _ h => h.1.2
  | _, assign left right => by
    rw [build, print]
    exact left.build_prints.bind fun _ => right.build_prints.bind fun _ =>
      prints_operator "=" (.inl rfl) (fun _ _ h => h.1.2) fun _ _ h => h.2
  | _, binary op left right => by
    rw [build, print]
    exact left.build_prints.bind fun _ => right.build_prints.bind fun _ =>
      prints_operator op (.inr (.inl rfl)) (fun _ _ h => h.1.2) fun _ _ h => h.2
  | _, logical op left right => by
    rw [build, print]
    exact left.build_prints.bind fun _ => right.build_prints.bind fun _ =>
      prints_operator op (.inr (.inr rfl)) (fun _ _ h => h.1.2) fun _ _ h => h.2
  | _, update op argument => by
    rw [build, print]
    exact argument.build_prints.bind fun _ => prints_update op fun _ _ h => h.2
  | _, unary op argument => by
    rw [build, print]
    exact argument.build_prints.bind fun _ => prints_unary op fun _ _ h => h.2
  | _, conditional test consequent alternate => by
    rw [build, print]
    exact test.build_prints.bind fun _ => consequent.build_prints.bind fun _ =>
      alternate.build_prints.bind fun _ =>
        prints_conditional (fun _ _ h => h.1.1.2) (fun _ _ h => h.1.2) fun _ _ h => h.2
  | _, object entries => by
    rw [build, print]
    exact (buildPairs_prints .property entries).bind fun _ => prints_object fun _ _ h => h.2
  | _, array elements => by
    rw [build, print]
    exact (buildAll_prints elements).bind fun _ => prints_array fun _ _ h => h.2
  | _, functionDecl name params body => by
    rw [build, print]
    exact (buildAll_prints body).bind fun _ =>
      prints_blockFunction (.inl rfl) (some name) params fun _ _ h => h.2
  | _, functionExpr name params body => by
    rw [build, print]
    exact (buildAll_prints body).bind fun _ =>
      prints_blockFunction (.inr rfl) name params fun _ _ h => h.2
  | _, arrow params body => by
    rw [build, print]
    exact body.build_prints.bind fun _ => prints_arrow params fun _ _ h => h.2
  | _, exprStmt expression => by
    rw [build, print]
    exact expression.build_prints.bind fun _ => prints_exprStmt fun _ _ h => h.2
  | _, varDecl kind name init => by
    rw [build, print]
    exact (buildIf_prints init).bind fun _ => prints_varDecl kind name fun _ _ h => h.2
  | _, block body => by
    rw [build, print]
    exact (buildAll_prints body).bind fun _ => prints_block fun _ _ h => h.2
  | _, ifStmt test consequent alternate => by
    rw [build, print]
    exact test.build_prints.bind fun _ => consequent.build_prints.bind fun _ =>
      (buildIf_prints alternate).bind fun _ =>
        prints_ifStmt (fun _ _ h => h.1.1.2) (fun _ _ h => h.1.2) fun _ _ h => h.2
  | _, returnStmt argument => by
    rw [build, print]
    exact (buildIf_prints argument).bind fun _ => prints_returnStmt fun _ _ h => h.2
  | _, forStmt init test step body => by
    rw [build, print]
    exact (buildIf_prints init).bind fun _ => (buildIf_prints test).bind fun _ =>
      (buildIf_prints step).bind fun _ => body.build_prints.bind fun _ =>
        prints_forStmt (fun _ _ h => h.1.1.1.2) (fun _ _ h => h.1.1.2) (fun _ _ h => h.1.2)
          fun _ _ h => h.2
  | _, tryStmt body handler finalizer => by
    rw [build, print]
    exact body.build_prints.bind fun _ => (buildPairIf_prints .clause handler).bind fun _ =>
      (buildIf_prints finalizer).bind fun _ =>
        prints_tryStmt (fun _ _ h => h.1.1.2) (fun _ _ h => h.1.2) fun _ _ h => h.2
  | _, program body => by
    rw [build, print]
    exact (buildAll_prints body).bind fun _ => prints_program fun _ _ h => h.2
  | _, atLine line term => by
    rw [build, print]
    exact (builds_setLine line).bind fun _ => term.build_prints
  | _, thenLine term line => by
    rw [build, print]
    exact term.build_prints.bind fun _ => (builds_setLine line).bind fun _ =>
      .pure fun _ _ h => h.1.2

theorem buildAll_prints : ∀ {P : Store → Nat → Prop} (ts : List Term),
    Builds P (buildAll ts) fun store depth ids =>
      List.Forall₂ (Shows short store depth) ids (printAll short ts)
  | _, [] => by
    rw [buildAll, printAll]
    exact .pure fun _ _ _ => .nil
  | _, t :: rest => by
    rw [buildAll, printAll]
    exact t.build_prints.bind fun _ => (buildAll_prints rest).bind fun _ =>
      .pure fun _ _ h => .cons h.1.2 h.2

theorem buildIf_prints : ∀ {P : Store → Nat → Prop} (t : Option Term),
    Builds P (buildIf t) fun store depth id =>
      Option.Rel (Shows short store depth) id (printIf short t)
  | _, none => by
    rw [buildIf, printIf]
    exact .pure fun _ _ _ => .none
  | _, some t => by
    rw [buildIf, printIf]
    exact t.build_prints.bind fun _ => .pure fun _ _ h => .some h.2

theorem buildPair_prints (text : String → Printed → Printed) :
    ∀ {P : Store → Nat → Prop} (pair : String × Term),
      Builds P (buildPair pair) fun store depth built =>
        ShowsPair text short store depth built (printPair short text pair)
  | _, (name, t) => by
    rw [buildPair, printPair]
    exact t.build_prints.bind fun _ => .pure fun _ _ h => ⟨_, h.2, rfl⟩

theorem buildPairs_prints (text : String → Printed → Printed) :
    ∀ {P : Store → Nat → Prop} (pairs : List (String × Term)),
      Builds P (buildPairs pairs) fun store depth built =>
        List.Forall₂ (ShowsPair text short store depth) built (printPairs short text pairs)
  | _, [] => by
    rw [buildPairs, printPairs]
    exact .pure fun _ _ _ => .nil
  | _, pair :: rest => by
    rw [buildPairs, printPairs]
    exact (buildPair_prints text pair).bind fun _ => (buildPairs_prints text rest).bind fun _ =>
      .pure fun _ _ h => .cons h.1.2 h.2

theorem buildPairIf_prints (text : String → Printed → Printed) :
    ∀ {P : Store → Nat → Prop} (pair : Option (String × Term)),
      Builds P (buildPairIf pair) fun store depth built =>
        Option.Rel (ShowsPair text short store depth) built (printPairIf short text pair)
  | _, none => by
    rw [buildPairIf, printPairIf]
    exact .pure fun _ _ _ => .none
  | _, some pair => by
    rw [buildPairIf, printPairIf]
    exact (buildPair_prints text pair).bind fun _ => .pure fun _ _ h => .some h.2

end

end Term

/-! ## Terms among other things -/

namespace Builder

/-- Something a builder can be asked for. -/
inductive Step where
  | line (line : Nat)
  /-- A node with those fields, except for its id. -/
  | node (fields : Node)
  | edge (edge : Edge)
  | term (term : Term)

namespace Step

def run : Step → Build Unit
  | .line n => Build.setLine n
  | .node fields => discard (Build.node fields.type fun fresh => { fields with id := fresh.id })
  | .edge e => Build.edge e
  | .term t => discard t.build

/-- The edges that are asked for one by one. -/
def edges : Step → List Edge
  | .edge e => [e]
  | _ => []

theorem adds (step : Step) (b : Builder) : Adds step.edges b (step.run.run b).2 := by
  cases step with
  | line n => exact (Build.builds_setLine (P := fun _ _ => True) n b).1
  | node fields =>
    have hmakes : Build.Makes (fun _ _ => True)
        (Build.node fields.type fun fresh => { fields with id := fresh.id }) _ :=
      .node fun _ => rfl
    exact (hmakes b).1
  | edge e => exact .insertEdge b e
  | term t =>
    have hprints : Build.Prints false (fun _ _ => True) t.build (t.print false) := t.build_prints
    exact (hprints b).1

end Step

/-- The builder after some steps. -/
def after (b : Builder) : List Step → Builder
  | [] => b
  | step :: rest => (step.run.run b).2.after rest

theorem adds_after (steps : List Step) (b : Builder) :
    Adds (steps.flatMap Step.edges) b (b.after steps) := by
  induction steps generalizing b with
  | nil => exact .refl b
  | cons step rest ih => exact (step.adds b).trans (ih _)

/-- There are as many nodes as ids were given. -/
theorem Adds.nextId_le {b : Builder} {es : List Edge} (h : Adds es {} b) :
    b.nextId ≤ b.store.nodeCount + 1 := by
  have hids : ∀ id ∈ List.range' 1 (b.nextId - 1), b.store.hasNode id = true := by
    intro id hid
    have hid := List.mem_range'_1.mp hid
    exact h.hasNode id hid.1 (by lia)
  have hcount := Store.length_le_nodeCount List.nodup_range' hids
  rw [List.length_range'] at hcount
  lia

end Builder

namespace Term

open Builder

/-- Builds the term after some steps. -/
abbrev buildAfter (before : List Step) (t : Term) : NodeId × Builder :=
  t.build.run (({} : Builder).after before)

/-- No edge of the other steps leads from a node of the term to a child. -/
def Apart (before after : List Step) (t : Term) : Prop :=
  ∀ e ∈ before.flatMap Step.edges ++ after.flatMap Step.edges, e.relation = .ast →
    e.source < (({} : Builder).after before).nextId ∨ (t.buildAfter before).2.nextId ≤ e.source

/-- The final graph has for the nodes of the term what its building left there. -/
theorem Apart.covers {before after : List Step} {t : Term} (h : t.Apart before after) :
    Covers ((t.buildAfter before).2.after after).store (({} : Builder).after before)
      (t.buildAfter before).2 := by
  have hbefore := adds_after before {}
  have hafter := adds_after after (t.buildAfter before).2
  refine ⟨fun id hle hlt => ?_, fun id _ hlt => hafter.node?_eq id hlt, fun id hle hlt => ?_⟩
  · rw [hbefore.outgoing_eq id (.inr hle), kidEdges_eq_nil fun e he hr => ?_]
    · rfl
    · have := h e (List.mem_append_left _ he) hr
      lia
  · rw [hafter.outgoing_eq id (.inl hlt), kidEdges_eq_nil fun e he hr => ?_, List.append_nil]
    have := h e (List.mem_append_right _ he) hr
    lia

/-- Rendering what was built for a term gives what is printed for it. -/
theorem render_buildAfter {before after : List Step} {t : Term} (h : t.Apart before after)
    (short : Bool) : ∃ rendered,
      ((t.buildAfter before).2.after after).store.service.render (t.buildAfter before).1 short
        = .ok rendered ∧
      rendered.code = (t.print short).code ∧ rendered.literals = (t.print short).literals ∧
        rendered.identifiers.names = firsts (t.print short).names := by
  have hterm : Build.Prints short (fun _ _ => True) t.build (t.print short) := t.build_prints
  obtain ⟨hbuild, hprints⟩ := hterm (({} : Builder).after before)
  have hafter := adds_after after (t.buildAfter before).2
  have hall := ((adds_after before {}).trans hbuild).trans hafter
  obtain ⟨node, hnode, rendered, hrender, hcode, hliterals, hnames⟩ :=
    hprints _ h.covers 0 (Nat.zero_le _) (fun _ _ => trivial) _
      (Nat.le_trans hafter.next_le hall.nextId_le)
  refine ⟨rendered, ?_, hcode, hliterals, hnames⟩
  rw [Service.render, Store.service_node hnode]
  exact hrender

/-- A function that logs what it was given. -/
def sender : Term :=
  .functionDecl "send" ["url", "n"]
    [.varDecl "let" "r" (some (.conditional (.binary ">" (.ident "n") (.number 0))
        (.methodCall (.path "this.log") "push" [.ident "url", .literal "it's \"up\""])
        (.object [("n", .ident "m")]))),
      .returnStmt (some (.ident "r"))]

theorem print_sender : sender.print false =
    ⟨"function send(url, n) \x7b let r = (n > \"0\") ? this.log.push(url, \"it's \\\"up\\\"\")"
        ++ " : \x7bn: m\x7d; return r; \x7d",
      ["0", "it's \"up\""], ["url", "n", "r", "n", thisIdentifier, "url", "m", "r"]⟩ := by
  have hzero : Int.repr 0 = "0" := rfl
  ext : 1 <;> simp [sender, print, printAll, printIf, printPairs, printPair, printFunction,
    printDeclaration, printOperation, printPath, printLiteral, printValue, printParams,
    Printed.header, Printed.block, Printed.body, Printed.joined, Printed.name, Printed.property,
    hzero]

/-- It is built after a name, and hung below that name afterwards. -/
theorem sender_apart : sender.Apart [.line 3, .term (.ident "w")]
    [.line 1, .edge { source := 1, target := 24, relation := .ast }, .term sender] := by
  intro e he _
  simp only [List.flatMap_cons, List.flatMap_nil, Step.edges, List.nil_append, List.append_nil,
    List.mem_singleton] at he
  subst he
  exact .inl (by decide)

theorem render_sender : ∃ rendered,
    ((sender.buildAfter [.line 3, .term (.ident "w")]).2.after
      [.line 1, .edge { source := 1, target := 24, relation := .ast }, .term sender]
      ).store.service.render (sender.buildAfter [.line 3, .term (.ident "w")]).1 = .ok rendered ∧
    rendered.code = "function send(url, n) \x7b let r = (n > \"0\") ? this.log.push(url, "
      ++ "\"it's \\\"up\\\"\") : \x7bn: m\x7d; return r; \x7d" ∧
    rendered.literals = ["0", "it's \"up\""] ∧
    rendered.identifiers.names = ["url", "n", "r", thisIdentifier, "m"] := by
  obtain ⟨rendered, hrender, hcode, hliterals, hnames⟩ := render_buildAfter sender_apart false
  rw [print_sender] at hcode hliterals hnames
  exact ⟨rendered, hrender, hcode, hliterals, hnames⟩

end Term

end RequestFlow

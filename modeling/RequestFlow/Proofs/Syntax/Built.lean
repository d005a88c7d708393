/-
What each form is rendered as once it is built, given what its parts are rendered
as. The rules follow the functions that build the forms.
-/
import RequestFlow.Proofs.Syntax.Hanging

namespace RequestFlow.Build

open Builder Writing

variable {P : Store → Nat → Prop} {short : Bool} {a b c : NodeId} {p q r : Printed}
  {ids : List NodeId} {ps : List Printed}

/-! ## Expressions -/

theorem prints_leaf {type : NodeType} {describe : Node → Node} (hi : ∀ n, (describe n).id = n.id)
    (hw : ∀ render id location kids,
      Rendered.WritesAs render short (describe { id, type, location }) kids p) :
    Prints short P (node type describe) p :=
  have hleaf : Prints short P (do let leaf ← node type describe; pure (); return leaf) p :=
    Hangs.nothing.prints hi fun _ _ _ _ _ _ _ => hw _ _ _ _
  hleaf

theorem prints_ident (short : Bool) (name : String) :
    Prints short P (ident name) (.name name) :=
  prints_leaf (fun _ => rfl) fun _ _ _ _ => Rendered.writes_identifier rfl

theorem prints_this : Prints short P this ⟨"this", [], [thisIdentifier]⟩ :=
  prints_leaf (fun _ => rfl) fun _ _ _ _ => Rendered.writes_this rfl

/-- A text of an empty object is taken for that of a regular expression. -/
theorem prints_literal (value : String) : Prints short P (literal value)
    (if value = "\x7b\x7d" then ⟨"'\x7b\x7d'", ["'\x7b\x7d'"], []⟩
      else ⟨quote value, [value], []⟩) := by
  split
  · next h =>
    subst h
    exact prints_leaf (fun _ => rfl) fun _ _ _ _ => Rendered.writes_regex rfl rfl
  · next h =>
    refine prints_leaf (fun _ => rfl) fun _ _ _ _ => Rendered.writes_literal rfl ?_
    have hbraces : Rendered.braces "" = "\x7b\x7d" := rfl
    simp [Rendered.isRegex, hbraces, h]

theorem prints_number (value : Int) :
    Prints short P (number value) ⟨quote (toString value), [toString value], []⟩ := by
  refine prints_leaf (fun _ => rfl) fun _ _ _ _ => Rendered.writes_literal rfl ?_
  simp only [Rendered.isRegex]
  grind

/-- A name that stands for itself. -/
theorem makes_ident (name : String) :
    Makes P (ident name) fun _ _ node => node.type = .identifier ∧ node.code = name := by
  have hnode : Makes P (ident name) fun _ _ node =>
      ∃ id location, node = { id, type := .identifier, location, code := name } :=
    Makes.node fun _ => rfl
  refine hnode.post ?_
  rintro store depth id - ⟨_, hn, _, _, rfl⟩
  exact ⟨_, hn, rfl, rfl⟩

theorem prints_member (property : String) (ho : Known short P a p) :
    Prints short P (member a property) (p ++ "." ++ property) := by
  refine (makes_ident property).bind fun id => ?_
  refine ((Hangs.child (fun store depth h => ho store depth h.1) "object").seq
    (Hangs.child (fun store depth h => h.2) "property")).prints (fun _ => rfl) ?_
  rintro store depth id location kids - ⟨_, _, ⟨_, ho, rfl⟩, ⟨_, ⟨ht, rfl⟩, rfl⟩, rfl⟩
  exact Rendered.writes_member rfl rfl ht ho

theorem prints_computedMember (ho : Known short P a p) (hp : Known short P b q) :
    Prints short P (computedMember a b) (p ++ "[" ++ q ++ "]") := by
  refine ((Hangs.child ho "object").seq (Hangs.child hp "property")).prints (fun _ => rfl) ?_
  rintro store depth id location kids - ⟨_, _, ⟨_, ho, rfl⟩, ⟨_, hp, rfl⟩, rfl⟩
  exact Rendered.writes_computedMember rfl rfl ho hp

theorem prints_invocation {type : NodeType} {t : Printed} (hc : Known short P a p)
    (ha : KnownAll short P ids ps)
    (hw : ∀ render node id callee args, node.type = type → RendersAs render callee p →
      List.Forall₂ (RendersAs render) args ps → Rendered.WritesAs render short node
        (kid id "callee" callee :: indexedKids id "arguments" 0 args) t) :
    Prints short P (invocation type a ids) t := by
  refine ((Hangs.child hc "callee").seq (Hangs.indexedChildren ha "arguments")).prints
    (fun _ => rfl) ?_
  rintro store depth id location kids - ⟨_, _, ⟨_, hc, rfl⟩, ⟨_, ha, rfl⟩, rfl⟩
  exact hw _ _ _ _ _ rfl hc ha

theorem prints_call (hc : Known short P a p) (ha : KnownAll short P ids ps) :
    Prints short P (call a ids) (p ++ "(" ++ .joined ", " ps ++ ")") :=
  prints_invocation hc ha fun _ _ _ _ _ => Rendered.writes_call

theorem prints_new (hc : Known short P a p) (ha : KnownAll short P ids ps) :
    Prints short P (new a ids) ("new " ++ p ++ "(" ++ .joined ", " ps ++ ")") :=
  prints_invocation hc ha fun _ _ _ _ _ => Rendered.writes_new

theorem prints_operator {type : NodeType} (op : String)
    (ht : type = .assignmentExpression ∨ type = .binaryExpression ∨ type = .logicalExpression)
    (hl : Known short P a p) (hr : Known short P b q) :
    Prints short P (operator type op a b)
      (p ++ " " ++ (if op.isEmpty then "=" else op) ++ " " ++ q) := by
  refine ((Hangs.child hl "left").seq (Hangs.child hr "right")).prints (fun _ => rfl) ?_
  rintro store depth id location kids - ⟨_, _, ⟨l, hl, rfl⟩, ⟨r, hr, rfl⟩, rfl⟩
  exact Rendered.writes_operator ht hl hr

theorem prints_update (op : String) (ha : Known short P a p) :
    Prints short P (update op a) (p ++ op) := by
  refine (Hangs.child ha "argument").prints (fun _ => rfl) ?_
  rintro store depth id location kids - ⟨_, ha, rfl⟩
  exact Rendered.writes_update rfl rfl ha

theorem prints_unary (op : String) (ha : Known short P a p) :
    Prints short P (unary op a)
      ((if op.toList.all Char.isAlpha then op ++ " " else op) ++ p) := by
  refine (Hangs.child ha "argument").prints (fun _ => rfl) ?_
  rintro store depth id location kids - ⟨_, ha, rfl⟩
  exact Rendered.writes_unary rfl ha

theorem prints_conditional (hp : Known short P a p) (hq : Known short P b q)
    (hr : Known short P c r) :
    Prints short P (conditional a b c) ("(" ++ p ++ ") ? " ++ q ++ " : " ++ r) := by
  refine ((Hangs.child hp "test").seq ((Hangs.child hq "consequent").seq
    (Hangs.child hr "alternate"))).prints (fun _ => rfl) ?_
  rintro store depth id location kids -
    ⟨_, _, ⟨_, hp, rfl⟩, ⟨_, _, ⟨_, hq, rfl⟩, ⟨_, hr, rfl⟩, rfl⟩, rfl⟩
  exact Rendered.writes_conditional rfl hp hq hr

theorem prints_members (properties : List String) (ho : Known short P a p) :
    Prints short P (members a properties)
      ⟨p.code ++ String.ofList (properties.flatMap ('.' :: ·.toList)), p.literals, p.names⟩ := by
  induction properties generalizing a p P with
  | nil =>
    refine .pure fun store depth h => ?_
    simpa using ho store depth h
  | cons property rest ih =>
    refine (prints_member property ho).bind fun id => ?_
    refine (ih fun store depth h => h.2).post fun store depth id _ h => ?_
    convert h using 1
    ext : 1
    · apply String.toList_injective
      simp
    · simp
    · simp

/-- The text of a dotted path names what stands before its first dot. -/
theorem prints_path (dotted : String) : Prints short P (path dotted)
    ⟨dotted, [], [if dotted.toList.takeWhile (· != '.') = "this".toList then thisIdentifier
      else String.ofList (dotted.toList.takeWhile (· != '.'))]⟩ := by
  obtain ⟨rest, hfields, hs⟩ := Chars.exists_fields '.' dotted.toList
  generalize dotted.toList.takeWhile (· != '.') = first at hfields hs ⊢
  have hrest : ∀ {root : Build NodeId} {name : String},
      Prints short P root ⟨String.ofList first, [], [name]⟩ →
        Prints short P (do members (← root) (rest.map String.ofList)) ⟨dotted, [], [name]⟩ := by
    intro root name hroot
    have hcode : String.ofList first
        ++ String.ofList ((rest.map String.ofList).flatMap ('.' :: ·.toList)) = dotted := by
      apply String.toList_injective
      simp [List.flatMap_map, hs]
    rw [← hcode]
    refine hroot.bind fun id => ?_
    have hid : ∀ store depth,
        P store depth ∧ Shows short store depth id ⟨String.ofList first, [], [name]⟩ →
          Shows short store depth id ⟨String.ofList first, [], [name]⟩ := fun _ _ h => h.2
    exact prints_members _ hid
  unfold path Text.fields
  rw [hfields]
  by_cases h : first = "this".toList
  · subst h
    exact hrest prints_this
  · have hne : (String.ofList first == "this") = false := by
      rw [beq_eq_false_iff_ne]
      exact fun he => h (by rw [← he, String.toList_ofList])
    simp only [List.map_cons, hne, if_neg h]
    exact hrest (prints_ident short _)

theorem prints_property (entry : String × NodeId) (q : Printed) :
    Prints short (fun store depth => ShowsPair .property short store depth entry q)
      (property entry) q := by
  refine ((Hangs.attach (makes_ident entry.1) "key" "").seq
    (Hangs.child (fun _ _ h => h.exists_node) "value")).prints (fun _ => rfl) ?_
  rintro store depth id location kids -
    ⟨_, _, ⟨key, ⟨ht, hkey⟩, rfl⟩, ⟨_, ⟨p, hp, rfl⟩, rfl⟩, rfl⟩
  rw [← hkey]
  exact Rendered.writes_property rfl rfl ht hp

theorem prints_object {entries : List (String × NodeId)}
    (h : ∀ store depth, P store depth →
      List.Forall₂ (ShowsPair .property short store depth) entries ps) :
    Prints short P (object entries) ("\x7b" ++ .joined ", " ps ++ "\x7d") := by
  have hhangs := Hangs.each prints_property h "properties" (fun _ => "") 0
  simp only [← properties_eq, kidsFrom_plain] at hhangs
  refine hhangs.prints (fun _ => rfl) ?_
  rintro store depth id location kids - ⟨_, hp, rfl⟩
  exact Rendered.writes_object rfl hp

theorem prints_array (h : KnownAll short P ids ps) :
    Prints short P (array ids) ("[" ++ .joined ", " ps ++ "]") := by
  refine (Hangs.indexedChildren h "elements").prints (fun _ => rfl) ?_
  rintro store depth id location kids - ⟨_, h, rfl⟩
  exact Rendered.writes_array rfl h

/-! ## Statements and functions -/

theorem prints_exprStmt (ha : Known short P a p) :
    Prints short P (exprStmt a) p := by
  refine (Hangs.child ha "expression").prints (fun _ => rfl) ?_
  rintro store depth id location kids - ⟨_, ha, rfl⟩
  exact Rendered.writes_expressionStatement rfl ha

theorem prints_block (h : KnownAll short P ids ps) :
    Prints short P (block ids) (.block ps) := by
  refine (Hangs.children h "body").prints (fun _ => rfl) ?_
  rintro store depth id location kids - ⟨_, h, rfl⟩
  exact Rendered.writes_block rfl h

theorem prints_program (h : KnownAll short P ids ps) :
    Prints short P (program ids)
      (if ps.isEmpty then "\x7b\x7d" else .joined "; " ps) := by
  refine (Hangs.children h "body").prints (fun _ => rfl) ?_
  rintro store depth id location kids - ⟨_, h, rfl⟩
  exact Rendered.writes_program rfl h

theorem Hangs.named (name : Option String) :
    Hangs P (fun parent => match name with
        | some name => do Build.child parent (← ident name) "id"
        | none => pure ())
      fun _ _ parent kids => ∃ node : Option Node, node.map (·.code) = name ∧
        kids = kid? parent "id" node := by
  cases name with
  | none => exact Hangs.nothing.imp fun _ _ _ _ _ ⟨_, hkids⟩ => ⟨none, rfl, hkids⟩
  | some name =>
    refine (Hangs.attach (makes_ident name) "id" "").imp ?_
    rintro store depth parent kids - ⟨node, ⟨_, rfl⟩, rfl⟩
    exact ⟨some node, rfl, rfl⟩

theorem Hangs.parameters (short : Bool) (names : List String) :
    Hangs P (fun parent => Build.parameters parent 0 names) fun store depth parent kids =>
      ∃ nodes, List.Forall₂ (RendersAs (store.service.renderUpTo short depth)) nodes
        (names.map .name) ∧ kids = indexedKids parent "params" 0 nodes := by
  have hname : ∀ name q, Makes (fun _ _ => q = Printed.name name) (ident name)
      fun store depth node => RendersAs (store.service.renderUpTo short depth) node q :=
    fun name q => (prints_ident short name).post fun _ _ _ h hs => h ▸ hs
  have hnames : List.Forall₂ (fun name q => q = Printed.name name) names (names.map .name) := by
    rw [List.forall₂_map_right_iff, List.forall₂_same]
    exact fun _ _ => rfl
  simp only [parameters_eq, ← kidsFrom_indexed]
  exact Hangs.each hname (fun _ _ _ => hnames) "params" indexArguments 0

theorem prints_function {type : NodeType} {name : Option String} {params : List String}
    {t : Printed} (hb : Known short P a p)
    (hw : ∀ render node id (named : Option Node) nodes body, node.type = type →
      named.map (·.code) = name → List.Forall₂ (RendersAs render) nodes (params.map .name) →
      RendersAs render body p → Rendered.WritesAs render short node
        (Rendered.functionKids id named nodes body) t) :
    Prints short P (function type name params a) t := by
  have hkids := (Hangs.named name).seq
    ((Hangs.parameters short params).seq (Hangs.child hb "body"))
  -- The builder branches on the name, and goes on in both branches alike.
  cases name
  all_goals
    refine hkids.prints (fun _ => rfl) ?_
    rintro store depth id location kids -
      ⟨_, _, ⟨_, hn, rfl⟩, ⟨_, _, ⟨_, hp, rfl⟩, ⟨_, hb, rfl⟩, rfl⟩, rfl⟩
    exact hw _ _ _ _ _ _ rfl hn hp hb

/-- A function with a name, or none, and statements. -/
theorem prints_blockFunction {type : NodeType}
    (ht : type = .functionDeclaration ∨ type = .functionExpression) (name : Option String)
    (params : List String)
    (h : KnownAll short P ids ps) :
    Prints short P (do function type name params (← block ids))
      (Printed.header (name.getD "") ++ .joined ", " (params.map .name) ++ ") "
        ++ (Printed.block ps).body short) := by
  refine (prints_block h).bind fun id => prints_function (fun _ _ h => h.2) ?_
  rintro render node id named nodes body rfl rfl hp hb
  have hname : named.elim "" (·.code) = (named.map (·.code)).getD "" := by cases named <;> rfl
  rw [← hname, ← Printed.inBraces_block]
  exact Rendered.writes_function ht hp hb

theorem prints_arrow (params : List String) (hb : Known short P a p) :
    Prints short P (arrow params a)
      ("(" ++ .joined ", " (params.map .name) ++ ") => " ++ p.body short) :=
  prints_function hb fun _ _ _ _ _ _ ht _ hp hb => Rendered.writes_arrow ht hp hb

/-- A name with the value it starts with. -/
def declarator (name : String) (init : Option NodeId) : Build NodeId := do
  let declarator ← node .variableDeclarator
  child declarator (← ident name) "id"
  childIf declarator init "init"
  return declarator

theorem prints_declarator (name : String) {init : Option NodeId} {q : Option Printed}
    (h : KnownIf short P init q) :
    Prints short P (declarator name init)
      (q.elim (.name name) (Printed.name name ++ " = " ++ ·)) := by
  refine ((Hangs.attach (prints_ident short name) "id" "").seq (Hangs.childIf h "init")).prints
    (fun _ => rfl) ?_
  rintro store depth id location kids - ⟨_, _, ⟨_, hn, rfl⟩, ⟨_, hi, rfl⟩, rfl⟩
  exact Rendered.writes_declarator rfl hn hi

theorem prints_varDecl (kind name : String) {init : Option NodeId} {q : Option Printed}
    (h : KnownIf short P init q) :
    Prints short P (varDecl kind name init) ((if kind.isEmpty then "var" else kind) ++ " "
      ++ q.elim (.name name) (Printed.name name ++ " = " ++ ·)) := by
  refine (Hangs.attach (prints_declarator name h) "declarations" "").prints (fun _ => rfl) ?_
  rintro store depth id location kids - ⟨_, hd, rfl⟩
  exact Rendered.writes_declaration rfl hd

theorem prints_ifStmt {alternate : Option NodeId} {r : Option Printed} (hp : Known short P a p)
    (hq : Known short P b q) (hr : KnownIf short P alternate r) :
    Prints short P (ifStmt a b alternate)
      ("if (" ++ p ++ ") " ++ q.inBraces ++ r.elim {} (" else " ++ ·.inBraces)) := by
  refine ((Hangs.child hp "test").seq ((Hangs.child hq "consequent").seq
    (Hangs.childIf hr "alternate"))).prints (fun _ => rfl) ?_
  rintro store depth id location kids -
    ⟨_, _, ⟨_, hp, rfl⟩, ⟨_, _, ⟨_, hq, rfl⟩, ⟨_, hr, rfl⟩, rfl⟩, rfl⟩
  exact Rendered.writes_if rfl hp hq hr

theorem prints_returnStmt {argument : Option NodeId} {q : Option Printed}
    (h : KnownIf short P argument q) :
    Prints short P (returnStmt argument) (q.elim "return" ("return " ++ ·)) := by
  refine (Hangs.childIf h "argument").prints (fun _ => rfl) ?_
  rintro store depth id location kids - ⟨_, h, rfl⟩
  exact Rendered.writes_return rfl h

theorem prints_forStmt {init test update : Option NodeId} {q r t : Option Printed}
    (hq : KnownIf short P init q) (hr : KnownIf short P test r) (ht : KnownIf short P update t)
    (hb : Known short P a p) :
    Prints short P (forStmt init test update a)
      ("for (" ++ q.getD {} ++ "; " ++ r.getD {} ++ "; " ++ t.getD {} ++ ") " ++ p.inBraces) := by
  refine ((Hangs.childIf hq "init").seq ((Hangs.childIf hr "test").seq
    ((Hangs.childIf ht "update").seq (Hangs.child hb "body")))).prints (fun _ => rfl) ?_
  rintro store depth id location kids - ⟨_, _, ⟨_, hq, rfl⟩, ⟨_, _, ⟨_, hr, rfl⟩,
    ⟨_, _, ⟨_, ht, rfl⟩, ⟨_, hb, rfl⟩, rfl⟩, rfl⟩, rfl⟩
  exact Rendered.writes_for rfl hq hr ht hb

/-- What is done with a caught value. -/
def clause (handler : String × NodeId) : Build NodeId := do
  let clause ← node .catchClause
  child clause (← ident handler.1) "param"
  child clause handler.2 "body"
  return clause

theorem prints_clause (handler : String × NodeId) (q : Printed) :
    Prints short (fun store depth => ShowsPair .clause short store depth handler q)
      (clause handler) q := by
  refine ((Hangs.attach (prints_ident short handler.1) "param" "").seq
    (Hangs.child (fun _ _ h => h.exists_node) "body")).prints (fun _ => rfl) ?_
  rintro store depth id location kids - ⟨_, _, ⟨_, hp, rfl⟩, ⟨_, ⟨_, hb, rfl⟩, rfl⟩, rfl⟩
  exact Rendered.writes_catch rfl hp hb

theorem prints_tryStmt {handler : Option (String × NodeId)} {finalizer : Option NodeId}
    {q r : Option Printed} (hp : Known short P a p)
    (hq : ∀ store depth, P store depth →
      Option.Rel (ShowsPair .clause short store depth) handler q)
    (hr : KnownIf short P finalizer r) :
    Prints short P (tryStmt a handler finalizer)
      ("try " ++ p.inBraces ++ q.elim {} (" " ++ ·) ++ r.elim {} (" finally " ++ ·.inBraces)) := by
  have hkids := (Hangs.child hp "block").seq ((Hangs.optional prints_clause hq "handler").seq
    (Hangs.childIf hr "finalizer"))
  cases handler
  all_goals
    refine hkids.prints (fun _ => rfl) ?_
    rintro store depth id location kids -
      ⟨_, _, ⟨_, hp, rfl⟩, ⟨_, _, ⟨_, hq, rfl⟩, ⟨_, hr, rfl⟩, rfl⟩, rfl⟩
    exact Rendered.writes_try rfl hp hq hr

end RequestFlow.Build

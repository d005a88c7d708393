/-
The code of a rendering and what it mentions are about the same nodes. A node is
written from the code of the children it reads, and all of that stands in its
own code; so every leaf that is read, a name, an occurrence of `this` or a
literal, stands in the code as well as among the mentions.
-/
import RequestFlow.Proofs.Graph.Tree
import RequestFlow.Proofs.Syntax.Occurrences

namespace RequestFlow

/-! ## Texts in texts -/

namespace Text

/-- The text stands somewhere in the other. -/
def Occurs (part whole : String) : Prop := part.toList <:+: whole.toList

instance (part whole : String) : Decidable (Occurs part whole) :=
  inferInstanceAs (Decidable (_ <:+: _))

namespace Occurs

variable {part whole other : String}

@[grind ←] theorem refl (s : String) : Occurs s s := List.infix_rfl

theorem trans (h : Occurs part whole) (h' : Occurs whole other) : Occurs part other :=
  List.IsInfix.trans h h'

@[grind ←] theorem left (h : Occurs part whole) (after : String) : Occurs part (whole ++ after) := by
  rw [Occurs, String.toList_append]
  exact List.infix_append_of_infix_left h

@[grind ←] theorem right (h : Occurs part whole) (before : String) : Occurs part (before ++ whole) := by
  rw [Occurs, String.toList_append]
  exact List.infix_append_of_infix_right h

@[grind ←] theorem braces (h : Occurs part whole) : Occurs part (Rendered.braces whole) :=
  (h.right _).left _

@[grind ←] theorem braced (h : Occurs part whole) : Occurs part (Rendered.braced whole) := by
  unfold Rendered.braced
  split
  · exact h
  · split
    · next he =>
      rw [String.isEmpty_iff.mp he] at h
      exact h.braces
    · exact ((h.right _).left _).braces

theorem intercalate {separator : String} {texts : List String} (hm : whole ∈ texts)
    (h : Occurs part whole) : Occurs part (separator.intercalate texts) := by
  induction texts with
  | nil => cases hm
  | cons text texts ih =>
    cases texts with
    | nil =>
      rw [String.intercalate_singleton]
      rwa [List.mem_singleton.mp hm] at h
    | cons next texts =>
      rw [String.intercalate_cons_cons]
      rcases List.mem_cons.mp hm with rfl | hm
      · exact (h.left _).left _
      · exact (ih hm).right _

end Occurs

end Text

/-! ## Writing -/

namespace Writing

variable {α : Type} {render : Renderer} {before : List String} {w : Writing String}
  {f : String → Writing String} {children more : List Node}

/-- Where `w` ends well, it has written these children: their literals have been mentioned, and
their code stands in what was written, together with the texts from before. -/
def Uses (render : Renderer) (before : List String) (w : Writing String) (children : List Node) :
    Prop :=
  ∀ m code m', (w.run render).run m = .ok (code, m') →
    (∀ text ∈ before, Text.Occurs text code) ∧ ∃ parts : List Rendered,
      List.Forall₂ (fun child part => render child = .ok part) children parts ∧
      m'.literals = m.literals ++ parts.flatMap (·.literals) ∧
      ∀ part ∈ parts, Text.Occurs part.code code

namespace Uses

theorem pure {code : String} (h : ∀ text ∈ before, Text.Occurs text code) :
    Uses render before (pure code) [] := by
  intro m code m' hrun
  cases hrun
  exact ⟨h, [], .nil, by simp, by simp⟩

/-- What was written first has to stand in what is written in the end. -/
theorem bind (hw : Uses render [] w children)
    (hf : ∀ code, Uses render (code :: before) (f code) more) :
    Uses render before (w >>= f) (children ++ more) := by
  intro m code m' h
  change ((w.run render).run m >>= fun p => ((f p.1).run render).run p.2) = _ at h
  obtain ⟨⟨first, m₁⟩, h₁, h₂⟩ := exists_of_bind h
  obtain ⟨-, parts, hparts, hl, hcode⟩ := hw _ _ _ h₁
  obtain ⟨hbefore, parts', hparts', hl', hcode'⟩ := hf first _ _ _ h₂
  obtain ⟨hfirst, hbefore⟩ := List.forall_mem_cons.mp hbefore
  refine ⟨hbefore, parts ++ parts', List.rel_append hparts hparts', ?_, ?_⟩
  · rw [hl', hl, List.flatMap_append, List.append_assoc]
  · intro part hm
    rcases List.mem_append.mp hm with hm | hm
    · exact (hcode part hm).trans hfirst
    · exact hcode' part hm

theorem text {g : String → String} (hw : Uses render [] w children)
    (hg : ∀ code, ∀ text ∈ code :: before, Text.Occurs text (g code)) :
    Uses render before (w >>= fun code => Pure.pure (g code)) children := by
  have h := hw.bind fun code => pure (hg code)
  rwa [List.append_nil] at h

theorem lift {x : Except GraphFault α} {f : α → Writing String}
    (h : ∀ a, x = .ok a → Uses render before (f a) children) :
    Uses render before (liftM x >>= f) children := by
  intro m b m' hrun
  cases x with
  | error fault => cases hrun
  | ok a => exact h a rfl _ _ _ hrun

theorem part (child : Node) : Uses render [] (part child) [child] := by
  intro m code m' h
  rw [run_part] at h
  obtain ⟨rendered, hr, h⟩ := exists_of_bind h
  cases h
  refine ⟨by simp, [rendered], .cons hr .nil, by simp, ?_⟩
  intro part hm
  rw [List.mem_singleton.mp hm]
  exact .refl _

theorem part? (child : Option Node) : Uses render [] (part? child) child.toList := by
  cases child with
  | none => exact pure (by simp)
  | some child => exact part child

theorem joined (separator : String) (children : List Node) :
    Uses render [] (joined separator children) children := by
  have hparts : ∀ m codes m', ((parts children).run render).run m = .ok (codes, m') →
      ∃ parts : List Rendered,
        List.Forall₂ (fun child part => render child = .ok part) children parts ∧
        m'.literals = m.literals ++ parts.flatMap (·.literals) ∧ codes = parts.map (·.code) := by
    induction children with
    | nil =>
      intro m codes m' h
      cases h
      exact ⟨[], .nil, by simp, rfl⟩
    | cons child rest ih =>
      intro m codes m' h
      change (((Writing.part child).run render).run m >>= fun p => ((parts rest >>= fun codes =>
        Pure.pure (p.1 :: codes)).run render).run p.2) = _ at h
      rw [run_part] at h
      obtain ⟨⟨code, m₁⟩, h₁, h⟩ := exists_of_bind h
      obtain ⟨rendered, hr, h₁⟩ := exists_of_bind h₁
      cases h₁
      obtain ⟨⟨codes, m₂⟩, h₂, h⟩ := exists_of_bind h
      cases h
      obtain ⟨parts, hparts, hl, rfl⟩ := ih _ _ _ h₂
      exact ⟨rendered :: parts, .cons hr hparts, by simp [hl], rfl⟩
  intro m code m' h
  obtain ⟨⟨codes, m₁⟩, h₁, h⟩ := exists_of_bind h
  cases h
  obtain ⟨parts, hparts, hl, rfl⟩ := hparts _ _ _ h₁
  exact ⟨by simp, parts, hparts, hl, fun part hm =>
    Text.Occurs.intercalate (List.mem_map_of_mem hm) (.refl _)⟩

end Uses

end Writing

/-! ## Leaves -/

namespace Node

/-- A node that is written from its own fields and mentioned: a name, an occurrence of `this` or a
literal. -/
def isLeaf (node : Node) : Bool :=
  match node.type with
  | .identifier | .thisExpression | .literal => true
  | _ => false

/-- What is noted down of a literal: its value, or the text of a regular expression. -/
def literal? (node : Node) : Option String :=
  if node.type = .literal then some (if Rendered.isRegex node then node.raw else node.value)
  else none

/-- How a leaf stands in the code. -/
def leafText (node : Node) : String :=
  match node.type with
  | .thisExpression => "this"
  | .literal => if Rendered.isRegex node then node.raw else quote node.value
  | _ => node.code

end Node

namespace Rendered

open Writing

variable {render : Renderer} {node : Node} {kids : Children Node}

theorem write_leaf {short : Bool} {x : Except GraphFault (Children Node)} (hl : node.isLeaf = true)
    {m m' : Mentions} {code : String} (h : ((write short node x).run render).run m = .ok (code, m')) :
    code = node.leafText ∧ m'.literals = m.literals ++ node.literal?.toList := by
  unfold Node.isLeaf at hl
  unfold write at h
  split at hl
  · next ht =>
    rw [ht] at h
    cases h
    simp [Node.leafText, Node.literal?, ht]
  · next ht =>
    rw [ht] at h
    cases h
    simp [Node.leafText, Node.literal?, ht]
  · next ht =>
    rw [ht] at h
    simp only [literal] at h
    simp only [Node.leafText, Node.literal?, ht]
    split at h
    · cases h
      simp_all
    · cases h
      simp_all
  · cases hl

theorem member_uses : Uses render [] (member node kids)
    ((kids.one? "object" (some 0)).toList ++ (readProperty? node kids).toList) := by
  unfold member readProperty?
  refine .bind (.part? _) fun object => ?_
  cases kids.one? "property" (some 1) with
  | none => exact .pure (by grind)
  | some property =>
    dsimp only
    split
    · next h =>
      have hread : (node.computed || property.type != .identifier) = true := by
        cases hc : node.computed <;> simp_all
      simp only [Option.filter, hread, if_true]
      exact .text (.part property) (by grind)
    · next h =>
      split
      · next hi =>
        have hread : (node.computed || property.type != .identifier) = false := by simp_all
        simp only [Option.filter, hread]
        exact .pure (by grind)
      · next hi =>
        have hread : (node.computed || property.type != .identifier) = true := by simp_all
        simp only [Option.filter, hread, if_true]
        exact .text (.part property) (by grind)

theorem function_uses (short : Bool) : Uses render [] (function short node kids)
    (kids.many "params" (some 0) ++ if short then [] else (functionBody? kids).toList) := by
  unfold function
  extract_lets name arrow
  refine .bind (.joined _ _) fun params => ?_
  extract_lets head
  have hhead : Text.Occurs params head := by
    unfold head
    grind
  cases short with
  | true => exact .pure (by grind)
  | false =>
    cases functionBody? kids with
    | none => exact .pure (by grind)
    | some body => exact .text (.part body) (by grind)

/-- Each kind of node that is no leaf is written from the children it reads, and from texts of its
own. -/
theorem write_uses (short : Bool) (hl : node.isLeaf = false) (x : Except GraphFault (Children Node)) :
    Uses render [] (write short node x) (reads short node (x.toOption.getD [])) := by
  generalize hkids : x.toOption.getD [] = kids
  have lift : ∀ {w : Children Node → Writing String} {children : List Node},
      Uses render [] (w kids) children → Uses render [] (liftM x >>= w) children := by
    intro w children h
    refine .lift fun a ha => ?_
    rw [ha] at hkids
    cases hkids
    exact h
  unfold write
  cases ht : node.type <;> simp only [reads, ht, List.append_assoc]
  case literal | identifier | thisExpression => simp [Node.isLeaf, ht] at hl
  case memberExpression => exact lift member_uses
  case assignmentExpression | binaryExpression | logicalExpression =>
    exact lift (.bind (.part? _) fun left => .text (.part? _) (by grind))
  case variableDeclaration => exact lift (.text (.joined _ _) (by grind))
  case variableDeclarator =>
    refine lift (.bind (.part? _) fun id => ?_)
    cases kids.one? "init" (some 1) with
    | none => exact .pure (by grind)
    | some init => exact .text (.part init) (by grind)
  case expressionStatement => exact lift (.part? _)
  case callExpression | newExpression =>
    exact lift (.bind (.part? _) fun callee => .text (.joined _ _) (by grind))
  case functionDeclaration | functionExpression | arrowFunctionExpression =>
    exact lift (function_uses short)
  case blockStatement =>
    refine lift ?_
    cases kids.many "body" (some 0) with
    | nil => exact .pure (by simp)
    | cons statement rest => exact .text (.joined _ _) (by grind)
  case program =>
    refine lift ?_
    cases kids.many "body" (some 0) with
    | nil => exact .pure (by simp)
    | cons statement rest => exact .joined _ _
  case ifStatement =>
    refine lift (.bind (.part? _) fun test => .bind (.part? _) fun consequent => ?_)
    cases kids.one? "alternate" (some 2) with
    | none => exact .pure (by grind)
    | some alternate => exact .text (.part alternate) (by grind)
  case conditionalExpression =>
    exact lift (.bind (.part? _) fun test => .bind (.part? _) fun consequent =>
      .text (.part? _) (by grind))
  case tryStatement =>
    refine lift (.bind (.part? _) fun block => ?_)
    cases kids.one? "handler" (some 1) <;> cases kids.one? "finalizer" (some 2) <;>
      simp only [pure_bind]
    case none.none => exact .pure (by grind)
    case none.some finalizer => exact .text (.part finalizer) (by grind)
    case some.none handler => exact .text (.part handler) (by grind)
    case some.some handler finalizer =>
      exact .bind (.part handler) fun handler => .text (.part finalizer) (by grind)
  case catchClause => exact lift (.bind (.part? _) fun param => .text (.part? _) (by grind))
  case objectExpression => exact lift (.text (.joined _ _) (by grind))
  case property =>
    refine lift ?_
    unfold readKey?
    cases kids.one? "key" (some 0) with
    | none => exact .text (.part? _) (by grind)
    | some key =>
      cases hc : node.computed with
      | false => exact .text (.part? _) (by grind)
      | true => exact .bind (.part key) fun key => .text (.part? _) (by grind)
  case arrayExpression => exact lift (.text (.joined _ _) (by grind))
  case updateExpression | unaryExpression => exact lift (.text (.part? _) (by grind))
  case sequenceExpression => exact lift (.joined _ _)
  case returnStatement | throwStatement =>
    refine lift ?_
    cases kids.one? "argument" (some 0) with
    | none => exact .pure (by simp)
    | some argument => exact .text (.part argument) (by grind)
  case forStatement =>
    exact lift (.bind (.part? _) fun init => .bind (.part? _) fun test =>
      .bind (.part? _) fun update => .text (.part? _) (by grind))
  case forInStatement =>
    exact lift (.bind (.part? _) fun left => .bind (.part? _) fun right =>
      .text (.part? _) (by grind))
  case whileStatement => exact lift (.bind (.part? _) fun test => .text (.part? _) (by grind))
  case doWhileStatement => exact lift (.bind (.part? _) fun body => .text (.part? _) (by grind))
  case switchStatement =>
    exact lift (.bind (.part? _) fun discriminant => .text (.joined _ _) (by grind))
  case switchCase =>
    refine lift (.bind (.joined _ _) fun body => ?_)
    cases kids.one? "test" none with
    | none => exact .pure (by grind)
    | some test => exact .text (.part test) (by grind)
  case breakStatement | continueStatement | emptyStatement => exact .pure (by simp)
  case other name =>
    refine lift ?_
    cases kids.all with
    | nil => exact .pure (by simp)
    | cons first rest => exact .joined _ _

/-- Only children are read. -/
theorem reads_of_forall {P : Node → Prop} (short : Bool) (hk : ∀ kid ∈ kids, P kid.2) :
    ∀ child ∈ reads short node kids, P child := by
  have hone : ∀ role position, ∀ child ∈ (kids.one? role position).toList, P child := by
    intro role position child hm
    exact Children.one?_of_forall hk child (Option.mem_toList.mp hm)
  have hsome : ∀ {child : Option Node}, (∀ node ∈ child, P node) → ∀ p : Node → Bool,
      ∀ node ∈ (child.filter p).toList, P node := by
    intro child hc p node hm
    exact hc node (Option.mem_filter_iff.mp (Option.mem_toList.mp hm)).1
  have hmany : ∀ role skip, ∀ child ∈ kids.many role skip, P child := fun _ _ =>
    Children.many_of_forall hk
  have hbody : ∀ child ∈ (functionBody? kids).toList, P child := by
    intro child hm
    replace hm := Option.mem_toList.mp hm
    unfold functionBody? at hm
    split at hm
    · exact Children.one?_of_forall hk child hm
    · exact Children.positional_of_forall hk child (List.mem_of_getLast? hm)
  cases ht : node.type <;> simp only [reads, ht, List.forall_mem_append, List.not_mem_nil,
    false_imp_iff, implies_true]
  case other => exact Children.all_of_forall hk
  case functionDeclaration | functionExpression | arrowFunctionExpression =>
    refine ⟨hmany _ _, ?_⟩
    split
    · simp
    · exact hbody
  case memberExpression => exact ⟨hone _ _, hsome (Children.one?_of_forall hk) _⟩
  case property => exact ⟨hsome (Children.one?_of_forall hk) _, hone _ _⟩
  all_goals and_intros <;> first | exact hone _ _ | exact hmany _ _

end Rendered

namespace Service

variable {g : Service} {short : Bool} {id : NodeId} {code : String} {leaf : Node}

/-- The leaves that are read in at most `fuel` levels of the syntax tree, in reading order. -/
def leavesUpTo (g : Service) (short : Bool) : (fuel : Nat) → Node → List Node
  | 0, _ => []
  | fuel + 1, node =>
    if node.isLeaf then [node]
    else (Rendered.reads short node ((g.astChildren node.id).toOption.getD [])).flatMap
      (g.leavesUpTo short fuel)

/-- The leaves that the rendering of a node reads, in reading order. -/
def leaves (g : Service) (node : Node) (short : Bool := false) : List Node :=
  g.leavesUpTo short (g.store.nodeCount + 1) node

/-- The leaf lies at or below `id`, and it stands in the code. -/
structure Stands (g : Service) (id : NodeId) (code : String) (leaf : Node) : Prop where
  holds : g.store.Holds leaf
  below : Relation.ReflTransGen g.store.AstStep id leaf.id
  shown : Text.Occurs leaf.leafText code

/-- What stands in the code of a child stands in the code of its parent. -/
theorem Stands.up {edge : Edge} {child : Node} {part : String} (hs : g.Stands child.id part leaf)
    (hc : g.IsChild id edge child) (ho : Text.Occurs part code) : g.Stands id code leaf :=
  ⟨hs.holds, .head hc.astStep hs.below, hs.shown.trans ho⟩

/-- The leaves of children that are written one after the other. -/
theorem stands_of_parts {found : Node → List Node} {children : List Node} {parts : List Rendered}
    (hparts : List.Forall₂ (fun child part => (∃ edge, g.IsChild id edge child) ∧
      part.literals = (found child).filterMap Node.literal? ∧
      ∀ leaf ∈ found child, g.Stands child.id part.code leaf) children parts)
    (hcode : ∀ part ∈ parts, Text.Occurs part.code code) :
    parts.flatMap (·.literals) = (children.flatMap found).filterMap Node.literal? ∧
      ∀ leaf ∈ children.flatMap found, g.Stands id code leaf := by
  induction hparts with
  | nil => exact ⟨rfl, by simp⟩
  | cons hpart _ ih =>
    obtain ⟨⟨edge, hchild⟩, hliterals, hstands⟩ := hpart
    obtain ⟨hfirst, hrest⟩ := List.forall_mem_cons.mp hcode
    obtain ⟨ihliterals, ihstands⟩ := ih hrest
    refine ⟨?_, ?_⟩
    · rw [List.flatMap_cons, List.flatMap_cons, List.filterMap_append, hliterals, ihliterals]
    · intro leaf hm
      rw [List.flatMap_cons] at hm
      rcases List.mem_append.mp hm with hm | hm
      · exact (hstands leaf hm).up hchild hfirst
      · exact ihstands leaf hm

/-- A rendering notes down the literals among the leaves it reads, and every leaf stands in its
code. -/
theorem renderUpTo_leaves {fuel : Nat} {node : Node} {rendered : Rendered}
    (hn : g.store.Holds node) (h : g.renderUpTo short fuel node = .ok rendered) :
    rendered.literals = (g.leavesUpTo short fuel node).filterMap Node.literal? ∧
      ∀ leaf ∈ g.leavesUpTo short fuel node, g.Stands node.id rendered.code leaf := by
  induction fuel generalizing node rendered with
  | zero =>
    cases h
    exact ⟨rfl, by simp [leavesUpTo]⟩
  | succ fuel ih =>
    unfold renderUpTo Rendered.ofChildren at h
    obtain ⟨⟨code, mentions⟩, hwrite, h⟩ := exists_of_bind h
    cases h
    rw [leavesUpTo]
    split
    · next hl =>
      obtain ⟨rfl, hliterals⟩ := Rendered.write_leaf hl hwrite
      refine ⟨hliterals.trans ?_, ?_⟩
      · cases hn : node.literal? <;> simp [hn]
      · intro leaf hm
        rw [List.mem_singleton.mp hm]
        exact ⟨hn, .refl, .refl _⟩
    · next hl =>
      obtain ⟨-, parts, hparts, hliterals, hcode⟩ :=
        Rendered.write_uses short (Bool.eq_false_iff.mpr hl) _ _ _ _ hwrite
      have hchildren : ∀ child ∈ Rendered.reads short node ((g.astChildren node.id).toOption.getD []),
          ∃ edge, g.IsChild node.id edge child := by
        refine Rendered.reads_of_forall short fun kid hm => ⟨kid.1, ?_⟩
        cases hkids : g.astChildren node.id with
        | error fault => rw [hkids] at hm; cases hm
        | ok kids =>
          rw [hkids] at hm
          exact ((astChildren_agree (Alike.self g) node.id).of_ok hkids).2 kid hm
      have hread := (List.forall₂_and_left _ _).mpr ⟨hchildren, hparts⟩
      obtain ⟨hfound, hstands⟩ := stands_of_parts (hread.imp fun child part h =>
        ⟨h.1, ih (h.1.elim fun _ hc => hc.holds) h.2⟩) hcode
      exact ⟨hliterals.trans hfound, hstands⟩

/-- The occurrences of names are those among the leaves. -/
theorem occurrencesUpTo_eq (g : Service) (short : Bool) (fuel : Nat) (node : Node) :
    g.occurrencesUpTo short fuel node =
      (g.leavesUpTo short fuel node).filterMap fun leaf => leaf.name?.map (·, leaf.id) := by
  induction fuel generalizing node with
  | zero => rfl
  | succ fuel ih =>
    rw [occurrencesUpTo, leavesUpTo]
    split
    · next name hname =>
      have hl : node.isLeaf = true := by
        unfold Node.name? at hname
        split at hname <;> simp_all [Node.isLeaf]
      simp [hl, hname]
    · next hname =>
      split
      · next hl =>
        have ht : node.type = .literal := by
          unfold Node.isLeaf at hl
          unfold Node.name? at hname
          split at hl <;> simp_all
        simp [Rendered.reads, ht, hname]
      · rw [List.filterMap_flatMap, funext ih]

/-- The name stands at the node, and in the code as it is written there. -/
def NameShown (code name : String) (node : Node) : Prop :=
  node.type = .identifier ∧ node.code = name ∧ Text.Occurs name code ∨
    node.type = .thisExpression ∧ name = thisIdentifier ∧ Text.Occurs "this" code

/-- The text is that of a literal, which stands in the code in quotes, or of a regular expression,
which stands there as it is. -/
def LiteralShown (code text : String) (node : Node) : Prop :=
  node.type = .literal ∧ (text = node.value ∧ Text.Occurs (quote text) code ∨
    node.value = Rendered.braces "" ∧ text = node.raw ∧ Text.Occurs text code)

theorem Stands.nameShown (hs : g.Stands id code leaf) {name : String}
    (hn : leaf.name? = some name) : NameShown code name leaf := by
  have hshown := hs.shown
  unfold Node.name? at hn
  split at hn
  · next ht =>
    cases hn
    rw [Node.leafText, ht] at hshown
    exact .inl ⟨ht, rfl, hshown⟩
  · next ht =>
    cases hn
    rw [Node.leafText, ht] at hshown
    exact .inr ⟨ht, rfl, hshown⟩
  · cases hn

theorem Stands.literalShown (hs : g.Stands id code leaf) {text : String}
    (hl : leaf.literal? = some text) : LiteralShown code text leaf := by
  have hshown := hs.shown
  unfold Node.literal? at hl
  split at hl
  · next ht =>
    rw [Node.leafText, ht] at hshown
    dsimp only at hshown
    refine ⟨ht, ?_⟩
    split at hl
    · next hr =>
      rw [if_pos hr] at hshown
      cases hl
      simp only [Rendered.isRegex, Bool.and_eq_true, beq_iff_eq] at hr
      exact .inr ⟨hr.1.1, rfl, hshown⟩
    · next hr =>
      rw [if_neg hr] at hshown
      cases hl
      exact .inl ⟨rfl, hshown⟩
  · cases hl

/-- A rendering of the node of that id, whose code and mentions agree. -/
structure Describes (g : Service) (id : NodeId) (short : Bool) (rendered : Rendered) : Prop where
  /-- No name is mentioned twice. -/
  distinct : rendered.identifiers.names.Nodup
  /-- A name stands at a node at or below the rendered one, and in the code. -/
  names : ∀ name origin, (name, origin) ∈ rendered.identifiers.entries →
    ∃ node, g.store.node? origin = some node ∧
      Relation.ReflTransGen g.store.AstStep id origin ∧ NameShown rendered.code name node
  /-- So does a literal. -/
  literals : ∀ text ∈ rendered.literals, ∃ node, g.store.Holds node ∧
    Relation.ReflTransGen g.store.AstStep id node.id ∧ LiteralShown rendered.code text node
  /-- No leaf that is read goes without mention. -/
  leaves : ∀ node, g.store.node? id = some node → ∀ leaf ∈ g.leaves node short,
    (∀ name ∈ leaf.name?, name ∈ rendered.identifiers.names) ∧
      ∀ text ∈ leaf.literal?, text ∈ rendered.literals

/-- **The code of a rendering and what it mentions agree.** -/
theorem render_describes {rendered : Rendered} (h : g.render id short = .ok rendered) :
    g.Describes id short rendered := by
  obtain ⟨node, hnode, hrender⟩ := exists_of_bind h
  have hheld := node?_of_node hnode
  obtain rfl := Store.id_of_node? hheld
  obtain ⟨hliterals, hstands⟩ := renderUpTo_leaves hheld hrender
  have hidentifiers := identifiers_renderNode hrender
  rw [occurrences, occurrencesUpTo_eq] at hidentifiers
  refine ⟨?_, ?_, ?_, ?_⟩
  · rw [hidentifiers]
    exact IdentifierMap.nodup_names_ofList _
  · intro name origin hm
    rw [hidentifiers, IdentifierMap.mem_ofList] at hm
    have hlast := List.mem_reverse.mp (mem_of_lookup hm)
    obtain ⟨leaf, hleaf, hoccurs⟩ := List.mem_filterMap.mp hlast
    obtain ⟨other, hname, he⟩ := Option.map_eq_some_iff.mp hoccurs
    cases he
    have hs := hstands leaf hleaf
    exact ⟨leaf, hs.holds, hs.below, hs.nameShown hname⟩
  · intro text hm
    rw [hliterals] at hm
    obtain ⟨leaf, hleaf, hliteral⟩ := List.mem_filterMap.mp hm
    have hs := hstands leaf hleaf
    exact ⟨leaf, hs.holds, hs.below, hs.literalShown hliteral⟩
  · intro other hother leaf hleaf
    cases hother.symm.trans hheld
    refine ⟨fun name hname => ?_, fun text hliteral => ?_⟩
    · rw [hidentifiers, IdentifierMap.mem_names_ofList]
      exact ⟨leaf.id, List.mem_filterMap.mpr ⟨leaf, hleaf, Option.map_eq_some_iff.mpr
        ⟨name, hname, rfl⟩⟩⟩
    · rw [hliterals]
      exact List.mem_filterMap.mpr ⟨leaf, hleaf, hliteral⟩

end Service

/-- The statement `x["a\"b"] = this.url + x(/a+/)`. -/
def mixedPage : Store :=
  .ofLists
    [{ id := 1, type := .expressionStatement }, { id := 2, type := .assignmentExpression },
     { id := 3, type := .memberExpression, computed := true },
     { id := 4, type := .identifier, code := "x" }, { id := 5, type := .literal, value := "a\"b" },
     { id := 6, type := .binaryExpression, code := "+" }, { id := 7, type := .memberExpression },
     { id := 8, type := .thisExpression }, { id := 9, type := .identifier, code := "url" },
     { id := 10, type := .callExpression }, { id := 11, type := .identifier, code := "x" },
     { id := 12, type := .literal, value := "\x7b\x7d", raw := "/a+/" }]
    [{ source := 1, target := 2, relation := .ast, relationType := "expression" },
     { source := 2, target := 3, relation := .ast, relationType := "left" },
     { source := 3, target := 4, relation := .ast, relationType := "object" },
     { source := 3, target := 5, relation := .ast, relationType := "property" },
     { source := 2, target := 6, relation := .ast, relationType := "right" },
     { source := 6, target := 7, relation := .ast, relationType := "left" },
     { source := 7, target := 8, relation := .ast, relationType := "object" },
     { source := 7, target := 9, relation := .ast, relationType := "property" },
     { source := 6, target := 10, relation := .ast, relationType := "right" },
     { source := 10, target := 11, relation := .ast, relationType := "callee" },
     { source := 10, target := 12, relation := .ast, relationType := "arguments" }]

/-- The name of a property is written but not mentioned, a name that occurs twice is mentioned with
its last occurrence, and a regular expression stands in the code without quotes. -/
theorem Service.render_describes_mixedPage :
    ∃ rendered, mixedPage.service.render 1 = .ok rendered ∧
      rendered.code = "x[\"a\\\"b\"] = this.url + x(/a+/)" ∧
      rendered.identifiers.entries = [("x", 11), (thisIdentifier, 8)] ∧
      rendered.literals = ["a\"b", "/a+/"] ∧
      mixedPage.service.Describes 1 false rendered := by
  have hrender : mixedPage.service.render 1 = .ok
      { code := "x[\"a\\\"b\"] = this.url + x(/a+/)", literals := ["a\"b", "/a+/"],
        identifiers := ⟨[("x", 11), (thisIdentifier, 8)]⟩ } := by decide +kernel
  exact ⟨_, hrender, rfl, rfl, rfl, Service.render_describes hrender⟩

end RequestFlow

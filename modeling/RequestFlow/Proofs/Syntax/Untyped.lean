/-
Syntax trees stored twice: with the role of each child on its edge, in order of
declaration, and without roles, in reverse order. The kinds of nodes whose
children can be told apart by their positions alone are rendered the same from
both.
-/
import RequestFlow.Proofs.Syntax.Children
import RequestFlow.Proofs.Syntax.Hanging
import RequestFlow.Proofs.Syntax.Rendering

namespace RequestFlow

/-! ## Children by kind -/

/-- The children that may follow those that a node always has. -/
inductive Tail where
  | none
  | optional (role : String)
  | many (role : String)
  deriving DecidableEq, Repr

/-- The children of a kind of node, by their roles in order of declaration. -/
structure Shape where
  fixed : List String := []
  tail : Tail := .none
  deriving DecidableEq, Repr

def Tail.role? : Tail → Option String
  | none => .none
  | optional role | many role => some role

def Shape.roles (shape : Shape) : List String := shape.fixed ++ shape.tail.role?.toList

/-- The children of the kinds of nodes in which a position tells the role. A function, a loop
without some of its parts or the case of a switch is not among them. -/
def NodeType.shape? : NodeType → Option Shape
  | literal | identifier | thisExpression => some {}
  | memberExpression => some { fixed := ["object", "property"] }
  | assignmentExpression | binaryExpression | logicalExpression =>
    some { fixed := ["left", "right"] }
  | variableDeclaration => some { tail := .many "declarations" }
  | variableDeclarator => some { fixed := ["id"], tail := .optional "init" }
  | expressionStatement => some { fixed := ["expression"] }
  | callExpression | newExpression => some { fixed := ["callee"], tail := .many "arguments" }
  | blockStatement | program => some { tail := .many "body" }
  | ifStatement => some { fixed := ["test", "consequent"], tail := .optional "alternate" }
  | conditionalExpression => some { fixed := ["test", "consequent", "alternate"] }
  | objectExpression => some { tail := .many "properties" }
  | property => some { fixed := ["key", "value"] }
  | arrayExpression => some { tail := .many "elements" }
  | updateExpression | unaryExpression => some { fixed := ["argument"] }
  | sequenceExpression => some { tail := .many "expressions" }
  | returnStatement | throwStatement => some { tail := .optional "argument" }
  | forStatement => some { fixed := ["init", "test", "update", "body"] }
  | forInStatement => some { fixed := ["left", "right", "body"] }
  | whileStatement => some { fixed := ["test", "body"] }
  | doWhileStatement => some { fixed := ["body", "test"] }
  | tryStatement => some { fixed := ["block", "handler"], tail := .optional "finalizer" }
  | catchClause => some { fixed := ["param", "body"] }
  | breakStatement | continueStatement | emptyStatement => some {}
  | _ => .none

/-- Children in one role; an index on an edge is the number of the child. -/
def Tail.Admits : Tail → List Edge → Prop
  | none, edges => edges = []
  | optional role, edges => edges.length ≤ 1 ∧ ∀ edge ∈ edges, edge.relationType = role
  | many role, edges => (∀ edge ∈ edges, edge.relationType = role) ∧
      ∀ entry ∈ edges.zipIdx, entry.1.argIndex? = .none ∨ entry.1.argIndex? = some entry.2

/-- The edges name the roles of children in order of declaration. -/
structure Shape.Fits (shape : Shape) (edges : List Edge) : Prop where
  fixed : (edges.take shape.fixed.length).map (·.relationType) = shape.fixed
  tail : shape.tail.Admits (edges.drop shape.fixed.length)

instance (tail : Tail) (edges : List Edge) : Decidable (tail.Admits edges) :=
  match tail with
  | .none => inferInstanceAs (Decidable (edges = []))
  | .optional _ => inferInstanceAs (Decidable (_ ≤ _ ∧ _))
  | .many _ => inferInstanceAs (Decidable ((∀ edge ∈ edges, _) ∧ _))

instance (shape : Shape) (edges : List Edge) : Decidable (shape.Fits edges) :=
  decidable_of_iff (_ ∧ _) ⟨fun h => ⟨h.1, h.2⟩, fun h => ⟨h.fixed, h.tail⟩⟩

/-- Roles are names, no two of a kind are the same, and a list of children comes after one child at
most. -/
structure Shape.Proper (shape : Shape) : Prop where
  named : "" ∉ shape.roles
  distinct : shape.roles.Nodup
  short : ∀ role, shape.tail = .many role → shape.fixed.length ≤ 1

theorem NodeType.shape?_proper {type : NodeType} {shape : Shape} (h : type.shape? = some shape) :
    shape.Proper := by
  cases type <;> cases h <;> exact ⟨by decide, by decide, by simp⟩

namespace Shape.Fits

variable {shape : Shape} {edges : List Edge} {i : Nat} {edge : Edge}

/-- The role of the child at a position. -/
theorem roles_getElem? (h : shape.Fits edges) (hi : edges[i]? = some edge) :
    shape.roles[min i shape.fixed.length]? = some edge.relationType := by
  rw [Shape.roles]
  by_cases hlt : i < shape.fixed.length
  · rw [Nat.min_eq_left (Nat.le_of_lt hlt), List.getElem?_append_left hlt]
    nth_rewrite 1 [← h.fixed]
    rw [List.getElem?_map, List.getElem?_take_of_lt hlt, hi]
    rfl
  · have hle : shape.fixed.length ≤ i := Nat.not_lt.mp hlt
    have hm : edge ∈ edges.drop shape.fixed.length := by
      refine List.mem_of_getElem? (i := i - shape.fixed.length) ?_
      rw [List.getElem?_drop, Nat.add_sub_cancel' hle, hi]
    have htail := h.tail
    rw [Nat.min_eq_right hle, List.getElem?_append_right (Nat.le_refl _), Nat.sub_self]
    cases ht : shape.tail with
    | none =>
      rw [ht] at htail
      rw [htail] at hm
      cases hm
    | optional role =>
      rw [ht] at htail
      simp [Tail.role?, htail.2 edge hm]
    | many role =>
      rw [ht] at htail
      simp [Tail.role?, htail.1 edge hm]

end Shape.Fits

/-! ## Children by their positions -/

namespace Children

universe u

variable {α : Type u} {children : Children α} {role : String} {i : Nat}

/-- The child in a role stands at a position, if the children before it have other roles. -/
theorem one?_of_place (h : children.HaveRoles)
    (hb : ∀ kid ∈ children.take i, kid.1.relationType ≠ role)
    (hi : ∀ kid ∈ children[i]?, kid.1.relationType = role) :
    children.one? role (some i) = (children.map (·.2))[i]? := by
  have hfirst : (children.take i).find? (·.1.relationType == role) = none :=
    List.find?_eq_none.mpr fun kid hk => by simpa using hb kid hk
  have hplace : (children.drop i).find? (·.1.relationType == role) = children[i]? := by
    rw [← List.head?_drop] at hi ⊢
    cases hd : children.drop i with
    | nil => rfl
    | cons kid rest =>
      have hk : kid.1.relationType = role := hi kid (by rw [hd]; rfl)
      simp [hk]
  have hfind : children.find? (·.1.relationType == role) = children[i]? := by
    rw [← List.take_append_drop i children, List.find?_append, hfirst, hplace,
      List.take_append_drop]
    rfl
  rw [one?_eq h, hfind, List.getElem?_map]

/-- Children in one role that stand last, after one other at most, are listed as they stand. An
index on one of them is its own number. -/
theorem many_of_run {before run : Children α} (h : HaveRoles (before ++ run))
    (hl : before.length ≤ 1) (hb : ∀ kid ∈ before, kid.1.relationType ≠ role)
    (hr : ∀ kid ∈ run, kid.1.relationType = role)
    (hi : ∀ (i : Nat) (kid : Edge × α), run[i]? = some kid →
      kid.1.argIndex? = none ∨ kid.1.argIndex? = some i)
    (skip : Nat) : many (before ++ run) role (some skip) = run.map (·.2) := by
  let index (i : Nat) : Option Nat := run[i]?.bind fun kid => kid.1.argIndex?
  have hown : ∀ (i : Nat) (kid : Edge × α), run[i]? = some kid → kid.1.argIndex? = index i :=
    fun i kid hk => by simp [index, hk]
  have hindex : ∀ i, index i = none ∨ index i = some i := by
    intro i
    unfold index
    cases hk : run[i]? with
    | none => exact .inl rfl
    | some kid => exact hi i kid hk
  have hmany := many_eq (by rwa [List.append_nil]) hb hr (by simp) hown ?_ skip
  · rwa [List.append_nil] at hmany
  · -- An index is smaller by one at most than the place of its child.
    intro i j hij
    rcases hindex i with hi | hi <;> rcases hindex j with hj | hj <;>
      rw [hi, hj] <;> simp only [Option.getD_none, Option.getD_some] <;> omega

/-- The same children without relation types, the last one first. -/
structure Strips (children other : Children α) : Prop where
  untyped : ∀ kid ∈ other, kid.1.relationType = ""
  reversed : other.map (·.2) = (children.map (·.2)).reverse

namespace Strips

variable {other : Children α}

theorem isTyped (h : children.Strips other) : other.isTyped = false := by
  refine List.any_eq_false.mpr fun kid hk => ?_
  simp [h.untyped kid hk]

theorem positional (h : children.Strips other) : other.positional = children.map (·.2) := by
  rw [Children.positional, List.map_reverse, h.reversed, List.reverse_reverse]

theorem one? (h : children.Strips other) (role : String) (i : Nat) :
    other.one? role (some i) = (children.map (·.2))[i]? := by
  rw [Children.one?, if_neg (by simp [h.isTyped]), h.positional]
  rfl

theorem many (h : children.Strips other) (role : String) (skip : Nat) :
    other.many role (some skip) = (children.map (·.2)).drop skip := by
  rw [Children.many, if_neg (by simp [h.isTyped]), h.positional]

end Strips

end Children

namespace Shape.Fits

variable {shape : Shape} {kids other : Children Node} {role : String} {i : Nat}

theorem relationType_getElem? (h : shape.Fits (kids.map (·.1))) {kid : Edge × Node}
    (hi : kids[i]? = some kid) :
    shape.roles[min i shape.fixed.length]? = some kid.1.relationType :=
  h.roles_getElem? (by rw [List.getElem?_map, hi]; rfl)

theorem haveRoles (h : shape.Fits (kids.map (·.1))) (hp : shape.Proper) : kids.HaveRoles := by
  intro kid hk he
  obtain ⟨i, hi⟩ := List.getElem?_of_mem hk
  have hrole := h.relationType_getElem? hi
  rw [he] at hrole
  exact hp.named (List.mem_of_getElem? hrole)

theorem le_of_role (hr : shape.roles[i]? = some role) : i ≤ shape.fixed.length := by
  obtain ⟨hlt, -⟩ := List.getElem?_eq_some_iff.mp hr
  have hlength : shape.roles.length ≤ shape.fixed.length + 1 := by
    rw [Shape.roles, List.length_append]
    cases shape.tail.role? <;> simp
  omega

/-- No child before the position of a role has that role. -/
theorem ne_of_mem_take (h : shape.Fits (kids.map (·.1))) (hp : shape.Proper)
    (hr : shape.roles[i]? = some role) : ∀ kid ∈ kids.take i, kid.1.relationType ≠ role := by
  intro kid hk he
  obtain ⟨hlt, -⟩ := List.getElem?_eq_some_iff.mp hr
  have hle := le_of_role hr
  obtain ⟨j, hj, hkid⟩ := List.mem_take_iff_getElem.mp hk
  have hplace := h.relationType_getElem? (List.getElem?_eq_some_iff.mpr ⟨by omega, hkid⟩)
  rw [he, ← hr] at hplace
  have hij := (List.getElem?_inj (by omega) hp.distinct).mp hplace
  omega

/-- The child in a role stands at the position of that role. -/
theorem one? (h : shape.Fits (kids.map (·.1))) (hp : shape.Proper)
    (hr : shape.roles[i]? = some role) :
    kids.one? role (some i) = (kids.map (·.2))[i]? := by
  refine Children.one?_of_place (h.haveRoles hp) (h.ne_of_mem_take hp hr) fun kid hk => ?_
  have hplace := h.relationType_getElem? hk
  rw [Nat.min_eq_left (le_of_role hr), hr] at hplace
  exact (Option.some.inj hplace).symm

/-- An index on an edge of the last role is the number of the child. -/
theorem argIndex?_of_getElem? (h : shape.Fits (kids.map (·.1))) (hr : shape.tail = .many role)
    (i : Nat) {kid : Edge × Node} (hi : (kids.drop shape.fixed.length)[i]? = some kid) :
    kid.1.argIndex? = none ∨ kid.1.argIndex? = some i := by
  have htail := h.tail
  rw [hr, ← List.map_drop] at htail
  refine htail.2 (kid.1, i) (List.mk_mem_zipIdx_iff_getElem?.mpr ?_)
  rw [List.getElem?_map, hi]
  rfl

/-- The children in the last role are those after the others. -/
theorem many (h : shape.Fits (kids.map (·.1))) (hp : shape.Proper)
    (hr : shape.tail = .many role) :
    kids.many role (some shape.fixed.length) = (kids.map (·.2)).drop shape.fixed.length := by
  have hlast : shape.roles[shape.fixed.length]? = some role := by simp [Shape.roles, hr, Tail.role?]
  have htail := h.tail
  rw [hr, ← List.map_drop] at htail
  have hbefore : (kids.take shape.fixed.length).length ≤ 1 :=
    Nat.le_trans (List.length_take_le _ _) (hp.short role hr)
  have hroles := h.haveRoles hp
  rw [← List.take_append_drop shape.fixed.length kids] at hroles
  have hmany := Children.many_of_run hroles hbefore (h.ne_of_mem_take hp hlast)
    (fun kid hk => htail.1 kid.1 (List.mem_map_of_mem hk))
    (fun i kid hi => h.argIndex?_of_getElem? hr i hi) shape.fixed.length
  rwa [List.take_append_drop, List.map_drop] at hmany

/-- The child in a role is the same without the roles. -/
theorem one?_strips (h : shape.Fits (kids.map (·.1))) (hp : shape.Proper)
    (hs : kids.Strips other) (hr : shape.roles[i]? = some role) :
    other.one? role (some i) = kids.one? role (some i) := by
  rw [hs.one?, h.one? hp hr]

theorem many_strips (h : shape.Fits (kids.map (·.1))) (hp : shape.Proper)
    (hs : kids.Strips other) (hl : shape.fixed.length = i) (hr : shape.tail = .many role) :
    other.many role (some i) = kids.many role (some i) := by
  rw [hs.many, ← hl, h.many hp hr]

end Shape.Fits

/-! ## Writing -/

namespace Writing

theorem lift_ok_bind {α β : Type} (a : α) (f : α → Writing β) :
    (liftM (Except.ok a : Except GraphFault α) >>= f) = f a := rfl

end Writing

namespace Rendered

open Writing

/-- A node is written the same without the roles of its children. -/
theorem write_strips {node : Node} {shape : Shape} {kids other : Children Node}
    (hn : node.type.shape? = some shape) (h : shape.Fits (kids.map (·.1)))
    (hs : kids.Strips other) (short : Bool) :
    write short node (.ok other) = write short node (.ok kids) := by
  have hp := NodeType.shape?_proper hn
  have one : ∀ i role, shape.roles[i]? = some role →
      other.one? role (some i) = kids.one? role (some i) := fun _ _ => h.one?_strips hp hs
  have many : ∀ i role, shape.fixed.length = i → shape.tail = .many role →
      other.many role (some i) = kids.many role (some i) := fun _ _ => h.many_strips hp hs
  cases ht : node.type <;> rw [ht] at hn <;> cases hn <;>
    simp only [write, member, ht, lift_ok_bind]
  case memberExpression | assignmentExpression | binaryExpression | logicalExpression | property |
      whileStatement | doWhileStatement | catchClause | variableDeclarator =>
    rw [one 0 _ rfl, one 1 _ rfl]
  case expressionStatement | updateExpression | unaryExpression | returnStatement |
      throwStatement =>
    rw [one 0 _ rfl]
  case variableDeclaration | blockStatement | program | objectExpression | arrayExpression |
      sequenceExpression =>
    rw [many 0 _ rfl rfl]
  case callExpression | newExpression => rw [one 0 _ rfl, many 1 _ rfl rfl]
  case ifStatement | conditionalExpression | forInStatement | tryStatement =>
    rw [one 0 _ rfl, one 1 _ rfl, one 2 _ rfl]
  case forStatement => rw [one 0 _ rfl, one 1 _ rfl, one 2 _ rfl, one 3 _ rfl]

end Rendered

/-! ## Stores -/

namespace Store

variable {typed untyped : Store}

/-- Every node is of a kind whose children can be told apart by position, and its edges name the
roles of its children in order of declaration. -/
structure InRoles (store : Store) : Prop where
  shapes : ∀ node ∈ store.nodes, ∃ shape ∈ node.type.shape?,
    shape.Fits (store.outgoing node.id (some .ast))
  closed : ∀ node ∈ store.nodes, ∀ edge ∈ store.outgoing node.id (some .ast),
    store.hasNode edge.target = true

/-- The same nodes with the same children, without roles and the last child first. -/
structure Strips (typed other : Store) : Prop where
  nodes : other.nodes.toList.Perm typed.nodes.toList
  untyped : ∀ node ∈ typed.nodes, ∀ edge ∈ other.outgoing node.id (some .ast),
    edge.relationType = ""
  reversed : ∀ node ∈ typed.nodes, (other.outgoing node.id (some .ast)).map (·.target) =
    ((typed.outgoing node.id (some .ast)).map (·.target)).reverse

/-- Children that all exist are found with their edges. -/
theorem exists_astChildren {store : Store} {id : NodeId}
    (h : ∀ edge ∈ store.outgoing id (some .ast), store.hasNode edge.target = true) :
    ∃ kids : Children Node, store.service.astChildren id = .ok kids ∧
      kids.map (·.1) = store.outgoing id (some .ast) ∧
        ∀ kid ∈ kids, store.node? kid.1.target = some kid.2 := by
  suffices hs : ∀ edges : List Edge, (∀ edge ∈ edges, store.hasNode edge.target = true) →
      ∃ kids : Children Node, kids.map (·.1) = edges ∧
        ∀ kid ∈ kids, store.node? kid.1.target = some kid.2 by
    obtain ⟨kids, hedges, hnodes⟩ := hs _ h
    exact ⟨kids, astChildren_eq hedges.symm hnodes, hedges, hnodes⟩
  intro edges
  induction edges with
  | nil => exact fun _ => ⟨[], rfl, by simp⟩
  | cons edge edges ih =>
    intro h
    obtain ⟨kids, hedges, hnodes⟩ := ih fun e he => h e (List.mem_cons_of_mem _ he)
    obtain ⟨node, hn⟩ := hasNode_iff.mp (h edge List.mem_cons_self)
    exact ⟨(edge, node) :: kids, by simp [hedges], List.forall_mem_cons.mpr ⟨hn, hnodes⟩⟩

theorem map_some_snd {store : Store} {kids : Children Node}
    (h : ∀ kid ∈ kids, store.node? kid.1.target = some kid.2) :
    (kids.map (·.2)).map some = ((kids.map (·.1)).map (·.target)).map store.node? := by
  rw [List.map_map, List.map_map, List.map_map]
  exact List.map_congr_left fun kid hk => (h kid hk).symm

namespace Strips

variable {typed other : Store}

theorem node? (h : Strips typed other) (id : NodeId) : other.node? id = typed.node? id := by
  ext node
  rw [node?_eq_some, node?_eq_some, ← Array.mem_toList_iff, ← Array.mem_toList_iff,
    h.nodes.mem_iff]

theorem nodeCount (h : Strips typed other) : other.nodeCount = typed.nodeCount := by
  rw [Store.nodeCount, Store.nodeCount, ← Array.length_toList, ← Array.length_toList,
    h.nodes.length_eq]

/-- The children of a node in both stores. -/
theorem children (h : Strips typed other) (hr : typed.InRoles) {node : Node}
    (hn : typed.Holds node) : ∃ kids stripped : Children Node,
      typed.service.astChildren node.id = .ok kids ∧
      other.service.astChildren node.id = .ok stripped ∧
      kids.map (·.1) = typed.outgoing node.id (some .ast) ∧
      (∀ kid ∈ kids, typed.Holds kid.2) ∧ kids.Strips stripped := by
  have hm := holds_iff_mem.mp hn
  have hclosed : ∀ edge ∈ other.outgoing node.id (some .ast),
      other.hasNode edge.target = true := by
    intro edge he
    have ht := List.mem_map_of_mem (f := (·.target)) he
    rw [h.reversed node hm, List.mem_reverse] at ht
    obtain ⟨edge', he', heq⟩ := List.mem_map.mp ht
    rw [hasNode, h.node?, ← heq]
    exact hr.closed node hm edge' he'
  obtain ⟨kids, hk, hedges, hnodes⟩ := exists_astChildren (hr.closed node hm)
  obtain ⟨stripped, hk', hedges', hnodes'⟩ := exists_astChildren hclosed
  refine ⟨kids, stripped, hk, hk', hedges, fun kid hm => holds_of_node? (hnodes kid hm), ?_, ?_⟩
  · intro kid hkid
    exact h.untyped node hm kid.1 (hedges' ▸ List.mem_map_of_mem hkid)
  · refine List.map_injective_iff.mpr (fun _ _ => Option.some.inj) ?_
    rw [List.map_reverse, map_some_snd hnodes, map_some_snd hnodes', hedges, hedges',
      h.reversed node hm, List.map_reverse, funext h.node?]

/-- Both stores are rendered alike, level by level. -/
theorem renderUpTo_agree (h : Strips typed other) (hr : typed.InRoles) (short : Bool)
    (fuel : Nat) : Writing.RenderersAgree .same typed.service typed.Holds
      (typed.service.renderUpTo short fuel) (other.service.renderUpTo short fuel) := by
  induction fuel with
  | zero => exact fun _ _ => .answer IdentifierMap.sound_empty
  | succ fuel ih =>
    intro node hn
    obtain ⟨shape, hs, hf⟩ := hr.shapes node (holds_iff_mem.mp hn)
    obtain ⟨kids, stripped, hk, hk', hedges, hheld, hstrips⟩ := h.children hr hn
    -- One node is written the same from both; its children are one level down.
    rw [Service.renderUpTo, Service.renderUpTo, hk, hk', Rendered.ofChildren, Rendered.ofChildren,
      Rendered.write_strips hs (hedges ▸ hf) hstrips]
    exact (Rendered.write_alike ih hn (.answer hheld) {} IdentifierMap.sound_empty).bind fun _ hp =>
      .answer hp.2

theorem renderNode_agree (h : Strips typed other) (hr : typed.InRoles) (short : Bool) {node : Node}
    (hn : typed.Holds node) : Agree .same (·.identifiers.Sound typed.service)
      (typed.service.renderNode node short) (other.service.renderNode node short) := by
  have hcount : other.service.store.nodeCount = typed.service.store.nodeCount := h.nodeCount
  rw [Service.renderNode, Service.renderNode, hcount]
  exact h.renderUpTo_agree hr short _ node hn

end Strips

/-- A syntax tree with roles and one without are rendered alike, at every node. -/
theorem render_strips {typed other : Store} (hr : typed.InRoles) (h : Strips typed other)
    (id : NodeId) (short : Bool) :
    other.service.render id short = typed.service.render id short := by
  have hnode : other.service.node id = typed.service.node id := by
    simp only [Service.node, Service.node?, Service.ask, Store.service, h.node?]
  rw [Service.render, Service.render, hnode]
  exact ((Service.node_agree (.self typed.service) fun hm => by cases hm).bind fun node hn =>
    h.renderNode_agree hr short (holds_of_node? hn)).eq.symm

/-- The edges of a page with roles. One list of children has indices, the others have none. -/
def roleEdges : List Edge :=
  [{ source := 1, target := 2, relation := .ast, relationType := "body" },
   { source := 1, target := 8, relation := .ast, relationType := "body" },
   { source := 1, target := 16, relation := .ast, relationType := "body" },
   { source := 2, target := 3, relation := .ast, relationType := "declarations" },
   { source := 2, target := 5, relation := .ast, relationType := "declarations" },
   { source := 3, target := 4, relation := .ast, relationType := "id" },
   { source := 5, target := 6, relation := .ast, relationType := "id" },
   { source := 5, target := 7, relation := .ast, relationType := "init" },
   { source := 8, target := 9, relation := .ast, relationType := "test" },
   { source := 8, target := 10, relation := .ast, relationType := "consequent" },
   { source := 10, target := 11, relation := .ast, relationType := "body" },
   { source := 11, target := 12, relation := .ast, relationType := "expression" },
   { source := 12, target := 13, relation := .ast, relationType := "callee" },
   { source := 12, target := 14, relation := .ast, relationType := "arguments",
     arguments := "\x7b\"arg\":0\x7d" },
   { source := 12, target := 15, relation := .ast, relationType := "arguments",
     arguments := "\x7b\"arg\":1\x7d" },
   { source := 16, target := 17, relation := .ast, relationType := "block" },
   { source := 16, target := 18, relation := .ast, relationType := "handler" },
   { source := 18, target := 19, relation := .ast, relationType := "param" },
   { source := 18, target := 20, relation := .ast, relationType := "body" }]

def pageWith (edges : List Edge) : Store :=
  .ofLists
    [{ id := 1, type := .program }, { id := 2, type := .variableDeclaration },
     { id := 3, type := .variableDeclarator }, { id := 4, type := .identifier, code := "a" },
     { id := 5, type := .variableDeclarator }, { id := 6, type := .identifier, code := "b" },
     { id := 7, type := .thisExpression }, { id := 8, type := .ifStatement },
     { id := 9, type := .identifier, code := "a" }, { id := 10, type := .blockStatement },
     { id := 11, type := .expressionStatement }, { id := 12, type := .callExpression },
     { id := 13, type := .identifier, code := "f" }, { id := 14, type := .identifier, code := "b" },
     { id := 15, type := .literal, value := "s" }, { id := 16, type := .tryStatement },
     { id := 17, type := .blockStatement }, { id := 18, type := .catchClause },
     { id := 19, type := .identifier, code := "e" }, { id := 20, type := .blockStatement }]
    edges

def rolePage : Store := pageWith roleEdges

/-- The page without roles, the last edge first. -/
def strippedPage : Store :=
  pageWith (roleEdges.reverse.map ({ · with relationType := "", arguments := "" }))

/-- A page of several kinds of nodes, stored with roles and without. -/
theorem render_strips_rolePage :
    rolePage.InRoles ∧ Strips rolePage strippedPage ∧
      (rolePage.service.render 1).map (·.code) =
        .ok "var a, b = this; if (a) \x7b f(b, \"s\"); \x7d; try \x7b\x7d catch(e) \x7b\x7d" ∧
      strippedPage.service.render 1 = rolePage.service.render 1 := by
  have hr : rolePage.InRoles := ⟨by decide +kernel, by decide +kernel⟩
  have hs : Strips rolePage strippedPage :=
    ⟨by decide +kernel, by decide +kernel, by decide +kernel⟩
  exact ⟨hr, hs, by decide +kernel, render_strips hr hs 1 false⟩

end Store

end RequestFlow

/-
What is written for a node of each kind, given what is written for its children.
The children are those that a builder hangs below such a node: each has a role,
and some are numbered.
-/
import RequestFlow.Graph.Builder
import RequestFlow.Proofs.Syntax.Children
import RequestFlow.Proofs.Syntax.Printed
import RequestFlow.Proofs.Text

namespace RequestFlow

/-! ## Numbers on edges -/

theorem isDecimal_of_isDigit {c : Char} (h : c.isDigit = true) : isDecimal c = true := by
  have hc : c.toNat < 0x80 := by
    have : 48 ≤ c.toNat ∧ c.toNat ≤ 57 := by
      simpa [Char.isDigit, UInt32.le_iff_toNat_le] using h
    omega
  rw [isDecimal, if_pos hc, h]

/-- The index that an edge carries is the one it was given, if it is a word. -/
theorem Edge.argIndex?_indexArguments {edge : Edge} {index : Nat}
    (h : edge.arguments = Build.indexArguments index) :
    edge.argIndex? = if index < wordBound then some index else none := by
  have hdigits : ∀ c ∈ Nat.toDigits 10 index, c.isDigit = true := Numeral.isDigit_of_mem_toDigits
  have htext : edge.arguments.toList =
      ['\x7b', '"', 'a', 'r', 'g', '"', ':'] ++ (Nat.toDigits 10 index ++ ['\x7d']) := by
    have hindex : (toString index).toList = Nat.toDigits 10 index := Nat.toList_repr
    rw [h, Build.indexArguments, String.toList_append, String.toList_append, hindex,
      List.append_assoc]
    rfl
  have htrim : (Nat.toDigits 10 index ++ ['\x7d']).dropWhile isBlank =
      Nat.toDigits 10 index ++ ['\x7d'] := by
    refine Chars.dropWhile_of_forall fun c hc => ?_
    rcases List.mem_append.mp hc with hc | hc
    · exact Numeral.isBlank_of_isDigit (hdigits c hc)
    · rw [List.mem_singleton.mp hc]
      decide
  have htake : (Nat.toDigits 10 index ++ ['\x7d']).takeWhile isDecimal = Nat.toDigits 10 index := by
    rw [List.takeWhile_append_of_pos fun c hc => isDecimal_of_isDigit (hdigits c hc)]
    have hbrace : isDecimal '\x7d' = false := by decide
    simp [hbrace]
  have hhere : indexHere? ('a' :: 'r' :: 'g' :: '"' :: ':' :: (Nat.toDigits 10 index ++ ['\x7d'])) =
      some (Nat.toDigits 10 index) := by
    change (if (((Nat.toDigits 10 index ++ ['\x7d']).dropWhile isBlank).takeWhile
        isDecimal).isEmpty then none else some _) = _
    rw [Chars.trimStart, htrim, htake, if_neg (by simp)]
  have hfirst : Edge.firstIndex? edge.arguments.toList = some (Nat.toDigits 10 index) := by
    have hbrace : ∀ s, indexHere? ('\x7b' :: s) = none := fun _ => rfl
    have hquote : ∀ s, indexHere? ('"' :: s) = none := fun _ => rfl
    rw [htext]
    simp only [List.cons_append, List.nil_append, firstIndex?, hbrace, hquote, hhere]
  rw [argIndex?, hfirst]
  dsimp only
  split
  · next hlt => rw [Numeral.read_toDigits_of_lt hlt]; rfl
  · next hge => rw [Numeral.read_toDigits_of_le (Nat.not_lt.mp hge)]; rfl

/-! ## Children in their roles -/

/-- A child in a role. -/
def kid (parent : NodeId) (role : String) (child : Node) : Edge × Node :=
  ({ source := parent, target := child.id, relation := .ast, relationType := role }, child)

/-- Children in a role, with their positions counted from `index`. -/
def indexedKids (parent : NodeId) (role : String) : (index : Nat) → List Node → Children Node
  | _, [] => []
  | index, child :: rest =>
    ({ source := parent, target := child.id, relation := .ast, relationType := role,
       arguments := Build.indexArguments index }, child)
      :: indexedKids parent role (index + 1) rest

/-- A child that may be absent. -/
def kid? (parent : NodeId) (role : String) (child : Option Node) : Children Node :=
  child.toList.map (kid parent role)

section Kids

variable {id : NodeId} {role other : String}

theorem role_of_mem_kid? {child : Option Node} {k : Edge × Node} (h : k ∈ kid? id role child) :
    k.1.relationType = role := by
  obtain ⟨_, -, rfl⟩ := List.mem_map.mp h
  rfl

theorem role_of_mem_indexedKids {index : Nat} {children : List Node} {k : Edge × Node}
    (h : k ∈ indexedKids id role index children) : k.1.relationType = role := by
  induction children generalizing index with
  | nil => cases h
  | cons child rest ih =>
    rcases List.mem_cons.mp h with rfl | h
    · rfl
    · exact ih h

theorem find?_kid (child : Node) :
    List.find? (fun k => k.1.relationType == role) [kid id role child] =
      some (kid id role child) := by
  simp [kid]

theorem find?_kid_other (h : role ≠ other) (child : Node) :
    List.find? (fun k => k.1.relationType == other) [kid id role child] = none := by
  simp [kid, h]

theorem find?_kid? (child : Option Node) :
    (kid? id role child).find? (·.1.relationType == role) = child.map (kid id role) := by
  cases child <;> simp [kid?, kid]

theorem find?_kid?_other (h : role ≠ other) (child : Option Node) :
    (kid? id role child).find? (·.1.relationType == other) = none := by
  cases child <;> simp [kid?, kid, h]

theorem find?_indexedKids_other (h : role ≠ other) (index : Nat) (children : List Node) :
    (indexedKids id role index children).find? (·.1.relationType == other) = none := by
  rw [List.find?_eq_none]
  intro k hk
  simpa [role_of_mem_indexedKids hk] using h

theorem map_snd_kid (child : Option Node) : (child.map (kid id role)).map (·.2) = child := by
  cases child <;> rfl

theorem role_of_mem_kids {children : List Node} {k : Edge × Node}
    (h : k ∈ children.map (kid id role)) : k.1.relationType = role := by
  obtain ⟨_, -, rfl⟩ := List.mem_map.mp h
  rfl

theorem map_indexedKids (index : Nat) (children : List Node) :
    (indexedKids id role index children).map (·.2) = children := by
  induction children generalizing index with
  | nil => rfl
  | cons child rest ih => rw [indexedKids, List.map_cons, ih]

theorem argIndex?_indexedKids {index i : Nat} {children : List Node} {k : Edge × Node}
    (h : (indexedKids id role index children)[i]? = some k) :
    k.1.argIndex? = if index + i < wordBound then some (index + i) else none := by
  induction children generalizing index i with
  | nil => cases h
  | cons child rest ih =>
    cases i with
    | zero =>
      cases h
      exact Edge.argIndex?_indexArguments rfl
    | succ i =>
      rw [ih h, Nat.add_assoc, Nat.add_comm 1 i]

variable {before after : Children Node}

/-- Numbered children are listed in the order of their numbers. -/
theorem many_indexedKids (hr : role ≠ "")
    (hb : ∀ k ∈ before, k.1.relationType ≠ "" ∧ k.1.relationType ≠ role)
    (ha : ∀ k ∈ after, k.1.relationType ≠ "" ∧ k.1.relationType ≠ role) (children : List Node)
    (skip : Nat) :
    Children.many (before ++ (indexedKids id role 0 children ++ after)) role (some skip) =
      children := by
  have hroles : Children.HaveRoles (before ++ (indexedKids id role 0 children ++ after)) := by
    intro k hk
    rcases List.mem_append.mp hk with hk | hk
    · exact (hb k hk).1
    · rcases List.mem_append.mp hk with hk | hk
      · exact role_of_mem_indexedKids hk ▸ hr
      · exact (ha k hk).1
  have hindex : ∀ i k, (indexedKids id role 0 children)[i]? = some k →
      k.1.argIndex? = if i < wordBound then some i else none := by
    intro i k hk
    simpa using argIndex?_indexedKids hk
  have hmono : ∀ n i j, i < j → (if i < wordBound then some i else none).getD (n + i) ≤
      (if j < wordBound then some j else none).getD (n + j) := by
    intro n i j hij
    split <;> split <;> simp only [Option.getD_some, Option.getD_none] <;> omega
  rw [Children.many_eq hroles (fun k hk => (hb k hk).2) (fun k hk => role_of_mem_indexedKids hk)
    (fun k hk => (ha k hk).2) hindex (hmono _) skip, map_indexedKids]

/-- Children without numbers are listed as they stand. -/
theorem many_kids (hr : role ≠ "") (children : List Node) (skip : Nat) :
    Children.many (children.map (kid id role)) role (some skip) = children := by
  have hroles : Children.HaveRoles ([] ++ (children.map (kid id role) ++ [])) := by
    intro k hk
    rw [List.nil_append, List.append_nil] at hk
    exact role_of_mem_kids hk ▸ hr
  have hindex : ∀ (i : Nat) k, (children.map (kid id role))[i]? = some k →
      k.1.argIndex? = (fun _ => none) i := by
    intro i k hk
    obtain ⟨child, -, rfl⟩ := List.mem_map.mp (List.mem_of_getElem? hk)
    rfl
  have hmany := Children.many_eq hroles (by simp) (fun k hk => role_of_mem_kids hk) (by simp) hindex
    (by simp; omega) skip
  rw [List.nil_append, List.append_nil, List.map_map] at hmany
  exact hmany.trans (List.map_id _)

theorem many_args (id : NodeId) (callee : Node) (args : List Node) :
    Children.many (kid id "callee" callee :: indexedKids id "arguments" 0 args) "arguments"
      (some 1) = args := by
  have hcallee : ∀ k ∈ [kid id "callee" callee],
      k.1.relationType ≠ "" ∧ k.1.relationType ≠ "arguments" := by
    simp [kid]
  have hmany : Children.many ([kid id "callee" callee] ++ (indexedKids id "arguments" 0 args ++ []))
      "arguments" (some 1) = args := many_indexedKids (by decide) hcallee (by simp) args 1
  rwa [List.append_nil] at hmany

end Kids

/-! ## Kinds of nodes -/

namespace Rendered

open Writing

variable {render : Renderer} {short : Bool} {node : Node} {id : NodeId}

/-- The node is written as that text. -/
abbrev WritesAs (render : Renderer) (short : Bool) (node : Node) (kids : Children Node)
    (p : Printed) : Prop :=
  Writes render (write short node (.ok kids)) p.code p.literals p.names

theorem writes_identifier {kids : Children Node} (ht : node.type = .identifier) :
    WritesAs render short node kids ⟨node.code, [], [node.code]⟩ := by
  simp only [WritesAs, write, ht]
  exact (Writes.mentionName _ _).bind (.pure _)

theorem writes_this {kids : Children Node} (ht : node.type = .thisExpression) :
    WritesAs render short node kids ⟨"this", [], [thisIdentifier]⟩ := by
  simp only [WritesAs, write, ht]
  exact (Writes.mentionName _ _).bind (.pure _)

theorem writes_literal {kids : Children Node} (ht : node.type = .literal)
    (hr : isRegex node = false) :
    WritesAs render short node kids ⟨quote node.value, [node.value], []⟩ := by
  simp only [WritesAs, write, ht, literal, hr]
  exact (Writes.mentionLiteral _).bind (.pure _)

theorem writes_regex {kids : Children Node} (ht : node.type = .literal) (hr : isRegex node = true) :
    WritesAs render short node kids ⟨node.raw, [node.raw], []⟩ := by
  simp only [WritesAs, write, ht, literal, hr]
  exact (Writes.mentionLiteral _).bind (.pure _)

theorem writes_operator {left right : Node} {p q : Printed}
    (ht : node.type = .assignmentExpression ∨ node.type = .binaryExpression ∨
      node.type = .logicalExpression)
    (hl : RendersAs render left p) (hr : RendersAs render right q) :
    WritesAs render short node [kid id "left" left, kid id "right" right]
      (p ++ " " ++ (if node.code.isEmpty then "=" else node.code) ++ " " ++ q) := by
  unfold WritesAs write
  rcases ht with ht | ht | ht
  all_goals
    simp only [ht]
    apply Writes.congr
    case h => exact .known (.bind (.part hl) (.bind (.part hr) (.pure _)))
    all_goals simp

theorem writes_member {object property : Node} {p : Printed} (ht : node.type = .memberExpression)
    (hc : node.computed = false) (hp : property.type = .identifier)
    (ho : RendersAs render object p) :
    WritesAs render short node [kid id "object" object, kid id "property" property]
      (p ++ "." ++ property.code) := by
  have hproperty : Children.one? [kid id "object" object, kid id "property" property] "property"
      (some 1) = some property := rfl
  simp only [WritesAs, write, ht]
  refine .known ?_
  simp only [member, hproperty, hc, hp, Bool.false_or]
  apply Writes.congr
  case h => exact .bind (.part ho) (.pure _)
  all_goals simp

theorem writes_computedMember {object property : Node} {p q : Printed}
    (ht : node.type = .memberExpression) (hc : node.computed = true)
    (ho : RendersAs render object p) (hp : RendersAs render property q) :
    WritesAs render short node [kid id "object" object, kid id "property" property]
      (p ++ "[" ++ q ++ "]") := by
  have hproperty : Children.one? [kid id "object" object, kid id "property" property] "property"
      (some 1) = some property := rfl
  simp only [WritesAs, write, ht]
  refine .known ?_
  simp only [member, hproperty, hc, Bool.true_or, if_true]
  apply Writes.congr
  case h => exact .bind (.part ho) (.bind (.part hp) (.pure _))
  all_goals simp

theorem writes_update {argument : Node} {p : Printed} (ht : node.type = .updateExpression)
    (hk : node.kind = "") (ha : RendersAs render argument p) :
    WritesAs render short node [kid id "argument" argument] (p ++ node.code) := by
  simp only [WritesAs, write, ht, hk]
  apply Writes.congr
  case h => exact .known (.bind (.part ha) (.pure _))
  all_goals simp

theorem writes_unary {argument : Node} {p : Printed} (ht : node.type = .unaryExpression)
    (ha : RendersAs render argument p) :
    WritesAs render short node [kid id "argument" argument]
      ((if node.code.toList.all Char.isAlpha then node.code ++ " " else node.code) ++ p) := by
  simp only [WritesAs, write, ht]
  apply Writes.congr
  case h => exact .known (.bind (.part ha) (.pure _))
  case ha => exact (apply_ite (· ++ p.code) _ _ _).symm
  all_goals exact List.append_nil _

theorem writes_conditional {test consequent alternate : Node} {p q r : Printed}
    (ht : node.type = .conditionalExpression) (hp : RendersAs render test p)
    (hq : RendersAs render consequent q) (hr : RendersAs render alternate r) :
    WritesAs render short node
      [kid id "test" test, kid id "consequent" consequent, kid id "alternate" alternate]
      ("(" ++ p ++ ") ? " ++ q ++ " : " ++ r) := by
  simp only [WritesAs, write, ht]
  apply Writes.congr
  case h => exact .known (.bind (.part hp) (.bind (.part hq) (.bind (.part hr) (.pure _))))
  all_goals simp

theorem writes_return {argument : Option Node} {p : Option Printed}
    (ht : node.type = .returnStatement) (ha : Option.Rel (RendersAs render) argument p) :
    WritesAs render short node (kid? id "argument" argument)
      (p.elim "return" ("return " ++ ·)) := by
  simp only [WritesAs, write, ht]
  refine .known ?_
  cases ha with
  | none => exact .pure _
  | some ha =>
    apply Writes.congr
    case h => exact .bind (.part ha) (.pure _)
    all_goals simp

theorem writes_expressionStatement {expression : Node} {p : Printed}
    (ht : node.type = .expressionStatement) (he : RendersAs render expression p) :
    WritesAs render short node [kid id "expression" expression] p := by
  simp only [WritesAs, write, ht]
  exact .known (.part he)

theorem writes_call {callee : Node} {args : List Node} {p : Printed} {ps : List Printed}
    (ht : node.type = .callExpression) (hc : RendersAs render callee p)
    (ha : List.Forall₂ (RendersAs render) args ps) :
    WritesAs render short node (kid id "callee" callee :: indexedKids id "arguments" 0 args)
      (p ++ "(" ++ .joined ", " ps ++ ")") := by
  simp only [WritesAs, write, ht]
  refine .known ?_
  rw [many_args]
  apply Writes.congr
  case h => exact .bind (.part hc) (.bind (.joined ha) (.pure _))
  all_goals simp

theorem writes_new {callee : Node} {args : List Node} {p : Printed} {ps : List Printed}
    (ht : node.type = .newExpression) (hc : RendersAs render callee p)
    (ha : List.Forall₂ (RendersAs render) args ps) :
    WritesAs render short node (kid id "callee" callee :: indexedKids id "arguments" 0 args)
      ("new " ++ p ++ "(" ++ .joined ", " ps ++ ")") := by
  simp only [WritesAs, write, ht]
  refine .known ?_
  rw [many_args]
  apply Writes.congr
  case h => exact .bind (.part hc) (.bind (.joined ha) (.pure _))
  all_goals simp

theorem writes_array {elements : List Node} {ps : List Printed}
    (ht : node.type = .arrayExpression) (he : List.Forall₂ (RendersAs render) elements ps) :
    WritesAs render short node (indexedKids id "elements" 0 elements)
      ("[" ++ .joined ", " ps ++ "]") := by
  have helements : Children.many ([] ++ (indexedKids id "elements" 0 elements ++ [])) "elements"
      (some 0) = elements := many_indexedKids (by decide) (by simp) (by simp) elements 0
  rw [List.nil_append, List.append_nil] at helements
  simp only [WritesAs, write, ht]
  refine .known ?_
  rw [helements]
  apply Writes.congr
  case h => exact .bind (.joined he) (.pure _)
  all_goals simp

theorem writes_object {properties : List Node} {ps : List Printed}
    (ht : node.type = .objectExpression) (hp : List.Forall₂ (RendersAs render) properties ps) :
    WritesAs render short node (properties.map (kid id "properties"))
      ("\x7b" ++ .joined ", " ps ++ "\x7d") := by
  simp only [WritesAs, write, ht]
  refine .known ?_
  rw [many_kids (by decide)]
  apply Writes.congr
  case h => exact .bind (.joined hp) (.pure _)
  all_goals simp [braces]

theorem writes_property {key value : Node} {p : Printed} (ht : node.type = .property)
    (hc : node.computed = false) (hk : key.type = .identifier) (hv : RendersAs render value p) :
    WritesAs render short node [kid id "key" key, kid id "value" value]
      (key.code ++ ": " ++ p) := by
  have hkey : Children.one? [kid id "key" key, kid id "value" value] "key" (some 0) =
      some key := rfl
  simp only [WritesAs, write, ht]
  refine .known ?_
  simp only [hkey, hc, propertyName, hk]
  apply Writes.congr
  case h => exact .bind (.pure _) (.bind (.part hv) (.pure _))
  all_goals simp

theorem writes_block {body : List Node} {ps : List Printed} (ht : node.type = .blockStatement)
    (hb : List.Forall₂ (RendersAs render) body ps) :
    WritesAs render short node (body.map (kid id "body")) (.block ps) := by
  simp only [WritesAs, write, ht]
  refine .known ?_
  rw [many_kids (by decide)]
  cases hb with
  | nil => exact .pure _
  | cons h hb =>
    apply Writes.congr
    case h => exact .bind (.joined (.cons h hb)) (.pure _)
    case ha =>
      apply String.toList_injective
      simp [Printed.block, braces]
    all_goals simp [Printed.block]

theorem writes_program {body : List Node} {ps : List Printed} (ht : node.type = .program)
    (hb : List.Forall₂ (RendersAs render) body ps) :
    WritesAs render short node (body.map (kid id "body"))
      (if ps.isEmpty then "\x7b\x7d" else .joined "; " ps) := by
  simp only [WritesAs, write, ht]
  refine .known ?_
  rw [many_kids (by decide)]
  cases hb with
  | nil => exact .pure _
  | cons h hb => exact .joined (.cons h hb)

theorem writes_declarator {name : Node} {init : Option Node} {p : Printed} {q : Option Printed}
    (ht : node.type = .variableDeclarator) (hn : RendersAs render name p)
    (hi : Option.Rel (RendersAs render) init q) :
    WritesAs render short node (kid id "id" name :: kid? id "init" init)
      (q.elim p (p ++ " = " ++ ·)) := by
  simp only [WritesAs, write, ht]
  refine .known ?_
  cases hi with
  | none =>
    apply Writes.congr
    case h => exact .bind (.part hn) (.pure _)
    all_goals simp
  | some hi =>
    apply Writes.congr
    case h => exact .bind (.part hn) (.bind (.part hi) (.pure _))
    all_goals simp

theorem writes_declaration {declarator : Node} {p : Printed}
    (ht : node.type = .variableDeclaration) (hd : RendersAs render declarator p) :
    WritesAs render short node [kid id "declarations" declarator]
      ((if node.kind.isEmpty then "var" else node.kind) ++ " " ++ p) := by
  have hmany : Children.many ([declarator].map (kid id "declarations")) "declarations" (some 0) =
      [declarator] := many_kids (by decide) [declarator] 0
  rw [List.map_singleton] at hmany
  simp only [WritesAs, write, ht]
  refine .known ?_
  rw [hmany]
  apply Writes.congr
  case h => exact .bind (.joined (.cons hd .nil)) (.pure _)
  all_goals simp [Printed.joined]

theorem writes_if {test consequent : Node} {alternate : Option Node} {p q : Printed}
    {r : Option Printed} (ht : node.type = .ifStatement) (hp : RendersAs render test p)
    (hq : RendersAs render consequent q) (hr : Option.Rel (RendersAs render) alternate r) :
    WritesAs render short node
      (kid id "test" test :: kid id "consequent" consequent :: kid? id "alternate" alternate)
      ("if (" ++ p ++ ") " ++ q.inBraces ++ r.elim {} (" else " ++ ·.inBraces)) := by
  simp only [WritesAs, write, ht]
  refine .known ?_
  cases hr with
  | none =>
    apply Writes.congr
    case h => exact .bind (.part hp) (.bind (.part hq) (.pure _))
    all_goals simp [Printed.code_inBraces]
  | some hr =>
    apply Writes.congr
    case h => exact .bind (.part hp) (.bind (.part hq) (.bind (.part hr) (.pure _)))
    all_goals simp [Printed.code_inBraces, String.append_assoc]

theorem writes_catch {param body : Node} {p q : Printed} (ht : node.type = .catchClause)
    (hp : RendersAs render param p) (hb : RendersAs render body q) :
    WritesAs render short node [kid id "param" param, kid id "body" body]
      ("catch(" ++ p ++ ") " ++ q.inBraces) := by
  simp only [WritesAs, write, ht]
  apply Writes.congr
  case h => exact .known (.bind (.part hp) (.bind (.part hb) (.pure _)))
  all_goals simp [Printed.code_inBraces]

theorem writes_try {block : Node} {handler finalizer : Option Node} {p : Printed}
    {q r : Option Printed} (ht : node.type = .tryStatement) (hp : RendersAs render block p)
    (hq : Option.Rel (RendersAs render) handler q)
    (hr : Option.Rel (RendersAs render) finalizer r) :
    WritesAs render short node
      (kid id "block" block :: (kid? id "handler" handler ++ kid? id "finalizer" finalizer))
      ("try " ++ p.inBraces ++ q.elim {} (" " ++ ·) ++ r.elim {} (" finally " ++ ·.inBraces)) := by
  simp only [WritesAs, write, ht]
  refine .known ?_
  cases hq with
  | none =>
    cases hr with
    | none =>
      apply Writes.congr
      case h => exact .bind (.part hp) (.bind (.pure _) (.bind (.pure _) (.pure _)))
      all_goals simp [Printed.code_inBraces]
    | some hr =>
      apply Writes.congr
      case h =>
        exact .bind (.part hp) (.bind (.pure _) (.bind (.part hr) (.bind (.pure _) (.pure _))))
      all_goals simp [Printed.code_inBraces]
  | some hq =>
    cases hr with
    | none =>
      apply Writes.congr
      case h =>
        exact .bind (.part hp) (.bind (.part hq) (.bind (.pure _) (.bind (.pure _) (.pure _))))
      all_goals simp [Printed.code_inBraces]
    | some hr =>
      apply Writes.congr
      case h =>
        exact .bind (.part hp) (.bind (.part hq) (.bind (.pure _) (.bind (.part hr)
          (.bind (.pure _) (.pure _)))))
      all_goals simp [Printed.code_inBraces]

theorem writes_for {init test update : Option Node} {body : Node} {p q r : Option Printed}
    {t : Printed} (ht : node.type = .forStatement) (hp : Option.Rel (RendersAs render) init p)
    (hq : Option.Rel (RendersAs render) test q) (hr : Option.Rel (RendersAs render) update r)
    (hb : RendersAs render body t) :
    WritesAs render short node
      (kid? id "init" init ++ (kid? id "test" test ++ (kid? id "update" update
        ++ [kid id "body" body])))
      ("for (" ++ p.getD {} ++ "; " ++ q.getD {} ++ "; " ++ r.getD {} ++ ") " ++ t.inBraces) := by
  have hroles : Children.HaveRoles (kid? id "init" init ++ (kid? id "test" test
      ++ (kid? id "update" update ++ [kid id "body" body]))) := by
    cases init <;> cases test <;> cases update <;> simp [Children.HaveRoles, kid?, kid]
  have hone := Children.one?_eq hroles
  simp only [WritesAs, write, ht]
  refine .known ?_
  simp only [hone, List.find?_append, find?_kid?, find?_kid?_other, find?_kid, find?_kid_other,
    ne_eq, String.reduceEq, not_false_eq_true, Option.none_or, Option.or_none, map_snd_kid]
  apply Writes.congr
  case h =>
    exact .bind (.part? hp) (.bind (.part? hq) (.bind (.part? hr) (.bind (.part hb) (.pure _))))
  all_goals simp [Printed.code_inBraces]

section Function

variable {name : Option Node} {params : List Node} {body : Node} {ps : List Printed} {q : Printed}

/-- The children of a function. -/
abbrev functionKids (id : NodeId) (name : Option Node) (params : List Node) (body : Node) :
    Children Node :=
  kid? id "id" name ++ (indexedKids id "params" 0 params ++ [kid id "body" body])

theorem functionKids_roles (id : NodeId) (name : Option Node) (params : List Node) (body : Node) :
    Children.HaveRoles (functionKids id name params body) := by
  intro k hk
  rcases List.mem_append.mp hk with hk | hk
  · simp [role_of_mem_kid? hk]
  · rcases List.mem_append.mp hk with hk | hk
    · simp [role_of_mem_indexedKids hk]
    · rw [List.mem_singleton.mp hk]
      simp [kid]

theorem name_functionKids (id : NodeId) (name : Option Node) (params : List Node) (body : Node) :
    Children.one? (functionKids id name params body) "id" none = name := by
  simp only [Children.one?_eq (functionKids_roles id name params body), List.find?_append,
    find?_kid?, find?_indexedKids_other, find?_kid_other, ne_eq, String.reduceEq, not_false_eq_true,
    Option.or_none, map_snd_kid]

theorem params_functionKids (id : NodeId) (name : Option Node) (params : List Node) (body : Node) :
    Children.many (functionKids id name params body) "params" (some 0) = params :=
  many_indexedKids (by decide) (fun k hk => by simp [role_of_mem_kid? hk]) (by simp [kid]) params 0

theorem body_functionKids (id : NodeId) (name : Option Node) (params : List Node) (body : Node) :
    functionBody? (functionKids id name params body) = some body := by
  have hmem : kid id "body" body ∈ functionKids id name params body := by simp [functionKids]
  rw [functionBody?, if_pos (Children.isTyped_of_mem (functionKids_roles id name params body) hmem)]
  simp only [Children.one?_eq (functionKids_roles id name params body), List.find?_append,
    find?_kid?_other, find?_indexedKids_other, find?_kid, ne_eq, String.reduceEq,
    not_false_eq_true, Option.none_or, Option.map_some]
  rfl

theorem writes_function (ht : node.type = .functionDeclaration ∨ node.type = .functionExpression)
    (hp : List.Forall₂ (RendersAs render) params ps) (hb : RendersAs render body q) :
    WritesAs render short node (functionKids id name params body)
      (Printed.header (name.elim "" (·.code)) ++ .joined ", " ps ++ ") "
        ++ q.inBraces.body short) := by
  unfold WritesAs write
  rcases ht with ht | ht
  all_goals
    simp only [ht]
    refine .known ?_
    unfold function
    rw [name_functionKids, params_functionKids, body_functionKids]
    simp only [ht, beq_iff_eq, reduceCtorEq, if_false, Printed.header_append]
    cases short with
    | true =>
      apply Writes.congr
      case h => exact .bind (.joined hp) (.pure _)
      case ha => cases name <;> simp [Printed.body, braces]
      all_goals simp [Printed.body]
    | false =>
      apply Writes.congr
      case h => exact .bind (.joined hp) (.bind (.part hb) (.pure _))
      case ha => cases name <;> simp [Printed.body, Printed.code_inBraces]
      all_goals simp [Printed.body]

theorem writes_arrow (ht : node.type = .arrowFunctionExpression)
    (hp : List.Forall₂ (RendersAs render) params ps) (hb : RendersAs render body q) :
    WritesAs render short node (functionKids id name params body)
      ("(" ++ .joined ", " ps ++ ") => " ++ q.body short) := by
  simp only [WritesAs, write, ht]
  refine .known ?_
  unfold function
  rw [name_functionKids, params_functionKids, body_functionKids]
  simp only [ht]
  cases short with
  | true =>
    apply Writes.congr
    case h => exact .bind (.joined hp) (.pure _)
    all_goals simp [Printed.body, braces]
  | false =>
    apply Writes.congr
    case h => exact .bind (.joined hp) (.bind (.part hb) (.pure _))
    all_goals simp [Printed.body]

end Function

end Rendered

end RequestFlow

/-
Rendered code can be laid out. A node is written from texts of its own, with
brackets in pairs, and from the code of its children: if each of these leaves
the level of brackets where it is, so does the whole. The values of literals
are quoted, so they may hold anything; what stands in the code as it is, names,
operators and regular expressions, has to be free of quotes and brackets.
-/
import RequestFlow.Proofs.Graph.Tree
import RequestFlow.Proofs.Layout.Balance
import RequestFlow.Proofs.Syntax.Rendering

namespace RequestFlow

/-! ## Code that keeps the level -/

namespace Layout

/-- The code leads from one level of brackets to another. -/
def Leads (level : Level) (code : String) (next : Level) : Prop :=
  level.takeAll? (pieces code.toList) = some next

/-- The brackets of the code come in pairs: at any level it leads back to it. -/
def Paired (code : String) : Prop := ∀ level, Leads level code level

variable {level middle next : Level} {code other : String}

theorem Level.isClosed_of_takeAll? {ps : List Piece} (h : level.takeAll? ps = some next) :
    ∀ piece ∈ ps, piece.isClosed = true := by
  induction ps generalizing level with
  | nil => simp
  | cons piece ps ih =>
    obtain ⟨middle, hpiece, hrest⟩ := Option.bind_eq_some_iff.mp h
    exact List.forall_mem_cons.mpr ⟨(take?_eq_some_iff.mp hpiece).1, ih hrest⟩

theorem Leads.append (h : Leads level code middle) (h' : Leads middle other next) :
    Leads level (code ++ other) next := by
  rw [Leads, String.toList_append, pieces_append (Level.isClosed_of_takeAll? h),
    Level.takeAll?_append, h]
  exact h'

theorem pieces_of_unquoted {s : List Char} (h : ∀ c ∈ s, isQuote c = false) :
    pieces s = s.map .char := by
  induction s with
  | nil => exact pieces_nil
  | cons c s ih =>
    obtain ⟨hc, hs⟩ := List.forall_mem_cons.mp h
    rw [pieces_char hc, ih hs, List.map_cons]

/-- A text without quotes leads where its brackets lead. -/
theorem Leads.text (hq : code.toList.all (!isQuote ·) = true)
    (h : level.takeAll? (code.toList.map .char) = some next) : Leads level code next := by
  rw [Leads, pieces_of_unquoted (by simpa using hq)]
  exact h

theorem Leads.andCode (h : Leads level code middle) (he : Paired other) :
    Leads level (code ++ other) middle := h.append (he middle)

theorem Leads.andText (h : Leads level code middle) (hq : other.toList.all (!isQuote ·) = true)
    (hl : middle.takeAll? (other.toList.map .char) = some next) :
    Leads level (code ++ other) next := h.append (.text hq hl)

/-- A quote or a bracket. -/
def isMark (c : Char) : Bool :=
  isQuote c || c == '(' || c == ')' || c == '\x7b' || c == '\x7d'

/-- The text has neither quotes nor brackets. -/
def IsPlain (s : String) : Prop := ∀ c ∈ s.toList, isMark c = false

instance (s : String) : Decidable (IsPlain s) := List.decidableBAll _ s.toList

namespace Paired

theorem text (hq : code.toList.all (!isQuote ·) = true)
    (h : ∀ level : Level, level.takeAll? (code.toList.map .char) = some level) : Paired code :=
  fun level => .text hq (h level)

theorem empty : Paired "" := .text rfl fun _ => rfl

theorem append (h : Paired code) (h' : Paired other) : Paired (code ++ other) :=
  fun level => (h level).andCode h'

theorem of_plain (h : IsPlain code) : Paired code := by
  intro level
  have hq : ∀ c ∈ code.toList, isQuote c = false := fun c hc => by
    have := h c hc
    simp only [isMark, Bool.or_eq_false_iff] at this
    exact this.1.1.1.1
  rw [Leads, pieces_of_unquoted hq]
  rw [IsPlain] at h
  generalize code.toList = s at h
  induction s with
  | nil => rfl
  | cons c s ih =>
    obtain ⟨hc, hs⟩ := List.forall_mem_cons.mp h
    simp only [isMark, Bool.or_eq_false_iff, beq_eq_false_iff_ne] at hc
    have htake : level.take? (.char c) = some level := by simp [Level.take?, hc]
    rw [List.map_cons, Level.takeAll?, htake]
    exact ih hs

theorem quote (value : String) : Paired (quote value) := by
  have hbody : ∀ s, IsBody '"' (quote.escape s) := by
    intro s
    induction s with
    | nil => exact .nil
    | cons c s ih =>
      rw [quote.escape]
      split
      · exact .escape c ih
      · next hc => exact .char (fun h => hc (.inr h)) (fun h => hc (.inl h)) ih
  have hpieces : pieces (RequestFlow.quote value).toList =
      [.literal '"' (quote.escape value.toList)] := by
    have hq : isQuote '"' = true := rfl
    rw [RequestFlow.quote, String.toList_ofList]
    exact (pieces_literal hq (closeLiteral?_append hq (hbody value.toList) [])).trans (by simp)
  intro level
  rw [Leads, hpieces]
  rfl

theorem braces (h : Paired code) : Paired (Rendered.braces code) :=
  fun _ => ((Leads.text rfl rfl).andCode h).andText rfl rfl

theorem braced (h : Paired code) : Paired (Rendered.braced code) := by
  unfold Rendered.braced
  split
  · exact h
  · split
    · exact empty.braces
    · exact braces fun _ => ((Leads.text rfl rfl).andCode h).andText rfl rfl

theorem intercalate {separator : String} (hs : Paired separator) {codes : List String}
    (h : ∀ code ∈ codes, Paired code) : Paired (separator.intercalate codes) := by
  induction codes with
  | nil => exact empty
  | cons code codes ih =>
    obtain ⟨hc, hrest⟩ := List.forall_mem_cons.mp h
    cases codes with
    | nil => rwa [String.intercalate_singleton]
    | cons other codes =>
      rw [String.intercalate_cons_cons]
      exact (hc.append hs).append (ih hrest)

/-- Code that keeps the level can be laid out. -/
theorem exists_format (h : Paired code) : ∃ text, format code = .ok text := by
  obtain ⟨hs, hb⟩ := Level.takeAll?_eq_some_iff.mp (h {})
  refine format_of_balanced ⟨hs, fun bracket => ?_⟩
  have := hb bracket
  cases bracket <;> simpa [Level.depth] using this

end Paired

end Layout

open Layout

/-- What stands in the code of a node as it is has neither quotes nor brackets. -/
structure Node.Plain (node : Node) : Prop where
  code : IsPlain node.code
  kind : IsPlain node.kind
  raw : node.type = .literal → node.value = Rendered.braces "" → IsPlain node.raw

theorem Node.plain_iff {node : Node} : node.Plain ↔ IsPlain node.code ∧ IsPlain node.kind ∧
    (node.type = .literal → node.value = Rendered.braces "" → IsPlain node.raw) :=
  ⟨fun h => ⟨h.code, h.kind, h.raw⟩, fun ⟨hc, hk, hr⟩ => ⟨hc, hk, hr⟩⟩

instance (node : Node) : Decidable node.Plain := decidable_of_iff _ Node.plain_iff.symm

/-! ## Writing -/

namespace Writing

variable {α β : Type} {render : Renderer} {P : α → Prop} {Q : β → Prop}

/-- Whatever `w` writes is so. -/
def Yields (render : Renderer) (P : α → Prop) (w : Writing α) : Prop :=
  ∀ m a m', (w.run render).run m = .ok (a, m') → P a

/-- The node is plain, and where it is rendered, its code keeps the level of brackets. -/
structure Tidy (render : Renderer) (node : Node) : Prop where
  plain : node.Plain
  paired : ∀ rendered, render node = .ok rendered → Paired rendered.code

namespace Yields

theorem pure {a : α} (h : P a) : Yields render P (pure a) := by
  intro m a' m' hrun
  cases hrun
  exact h

theorem bind {w : Writing α} {f : α → Writing β} (hw : Yields render P w)
    (hf : ∀ a, P a → Yields render Q (f a)) : Yields render Q (w >>= f) := by
  intro m b m' h
  change ((w.run render).run m >>= fun p => ((f p.1).run render).run p.2) = _ at h
  obtain ⟨⟨a, m₁⟩, h₁, h₂⟩ := exists_of_bind h
  exact hf a (hw _ _ _ h₁) _ _ _ h₂

theorem lift {x : Except GraphFault α} (h : ∀ a, x = .ok a → P a) :
    Yields render P (liftM x) := by
  intro m a m' hrun
  cases x with
  | error fault => cases hrun
  | ok a => cases hrun; exact h a rfl

theorem part {child : Node} (hc : Tidy render child) : Yields render Paired (part child) := by
  intro m a m' h
  rw [run_part] at h
  obtain ⟨rendered, hr, h⟩ := exists_of_bind h
  cases h
  exact hc.paired rendered hr

theorem part? {child : Option Node} (hc : ∀ node ∈ child, Tidy render node) :
    Yields render Paired (part? child) := by
  cases child with
  | none => exact pure .empty
  | some child => exact part (hc child rfl)

theorem parts {children : List Node} (hc : ∀ node ∈ children, Tidy render node) :
    Yields render (∀ code ∈ ·, Paired code) (parts children) := by
  induction children with
  | nil => exact pure (by simp)
  | cons child rest ih =>
    obtain ⟨hchild, hrest⟩ := List.forall_mem_cons.mp hc
    exact (part hchild).bind fun code he => (ih hrest).bind fun codes hes =>
      pure (List.forall_mem_cons.mpr ⟨he, hes⟩)

theorem joined {separator : String} (hs : Paired separator) {children : List Node}
    (hc : ∀ node ∈ children, Tidy render node) :
    Yields render Paired (joined separator children) :=
  (parts hc).bind fun _ h => pure (hs.intercalate h)

theorem modify (f : Mentions → Mentions) : Yields render (fun _ => True) (modify f) :=
  fun _ _ _ _ => trivial

end Yields

end Writing

namespace Rendered

open Writing

variable {render : Renderer} {node : Node} {kids : Children Node} {separator role : String}
  {position : Option Nat}

theorem comma_paired : Paired ", " := .text rfl fun _ => rfl

theorem semicolon_paired : Paired "; " := .text rfl fun _ => rfl

theorem literal_yields (hn : node.Plain) (ht : node.type = .literal) :
    Yields render Paired (literal node) := by
  unfold literal
  split
  · next hr =>
    simp only [isRegex, Bool.and_eq_true, beq_iff_eq] at hr
    exact (Yields.modify _).bind fun _ _ => .pure (.of_plain (hn.raw ht hr.1.1))
  · exact (Yields.modify _).bind fun _ _ => .pure (.quote _)

theorem propertyName_paired {key : Node} (hk : key.Plain) : Paired (propertyName key) := by
  unfold propertyName
  split
  · exact .quote _
  · exact .of_plain hk.code

section Kids

variable (hk : ∀ kid ∈ kids, Tidy render kid.2)
include hk

theorem tidy_of_one? {child : Node} (hc : kids.one? role position = some child) :
    Tidy render child := Children.one?_of_forall hk child hc

theorem one_yields : Yields render Paired (part? (kids.one? role position)) :=
  .part? (Children.one?_of_forall hk)

theorem many_yields (hs : Paired separator) :
    Yields render Paired (joined separator (kids.many role position)) :=
  .joined hs (Children.many_of_forall hk)

theorem member_yields : Yields render Paired (member node kids) := by
  unfold member
  refine (one_yields hk).bind fun object ho => ?_
  split
  · exact .pure ho
  · next property hp =>
    have htidy := tidy_of_one? hk hp
    split
    · refine (Yields.part htidy).bind fun code hc => .pure fun level => ?_
      exact (((ho level).andText rfl rfl).andCode hc).andText rfl rfl
    · have hdot : Paired (object ++ ".") := fun level => (ho level).andText rfl rfl
      split
      · exact .pure (hdot.append (.of_plain htidy.plain.code))
      · exact (Yields.part htidy).bind fun code hc => .pure (hdot.append hc)

theorem functionBody?_tidy : ∀ node ∈ functionBody? kids, Tidy render node := by
  intro node hn
  unfold functionBody? at hn
  split at hn
  · exact Children.one?_of_forall hk node hn
  · exact Children.positional_of_forall hk node (List.mem_of_getLast? hn)

theorem function_yields {short : Bool} : Yields render Paired (function short node kids) := by
  unfold function
  extract_lets name arrow
  have hname : Paired name := by
    unfold name
    split
    · next hid => exact .of_plain (tidy_of_one? hk hid).plain.code
    · exact .empty
  refine (many_yields hk comma_paired).bind fun params hp => ?_
  extract_lets head
  have hhead : Paired head := by
    unfold head
    split
    · exact fun _ => ((Leads.text rfl rfl).andCode hp).andText rfl rfl
    · split
      · exact fun _ => ((Leads.text rfl rfl).andCode hp).andText rfl rfl
      · exact fun _ => ((((Leads.text rfl rfl).andCode hname).andText rfl rfl).andCode hp).andText
          rfl rfl
  have hbody : ∀ body, Paired body →
      Paired (head ++ if arrow = true then body else Rendered.braced body) := by
    intro body hb
    split
    · exact hhead.append hb
    · exact hhead.append hb.braced
  split
  · exact .pure (hhead.append (.braces (.text rfl fun _ => rfl)))
  · split
    · next body hb =>
      exact (Yields.part (functionBody?_tidy hk body hb)).bind fun body hb => .pure (hbody body hb)
    · exact .pure (hbody _ Paired.empty.braces)

end Kids

/-- One node, given how its children are rendered: texts of its own alternate with the code of its
children, and the brackets in these texts come in pairs. -/
theorem write_yields {short : Bool} (hn : node.Plain) {x : Except GraphFault (Children Node)}
    (hx : ∀ kids, x = .ok kids → ∀ kid ∈ kids, Tidy render kid.2) :
    Yields render Paired (write short node x) := by
  have hcode : Paired node.code := .of_plain hn.code
  have hkids : ∀ {w : Children Node → Writing String},
      (∀ kids : Children Node, (∀ kid ∈ kids, Tidy render kid.2) → Yields render Paired (w kids)) →
      Yields render Paired (liftM x >>= w) := fun h => (Yields.lift hx).bind h
  have hoperator : ∀ {left right : String}, Paired left → Paired right →
      Paired (left ++ " " ++ (if node.code.isEmpty then "=" else node.code) ++ " " ++ right) := by
    intro left right hl hr level
    have hop : Paired (if node.code.isEmpty then "=" else node.code) := by
      split
      · exact .text rfl fun _ => rfl
      · exact hcode
    exact ((((hl level).andText rfl rfl).andCode hop).andText rfl rfl).andCode hr
  unfold write
  cases ht : node.type with
  | literal => exact literal_yields hn ht
  | identifier => exact (Yields.modify _).bind fun _ _ => .pure hcode
  | thisExpression => exact (Yields.modify _).bind fun _ _ => .pure (.text rfl fun _ => rfl)
  | memberExpression => exact hkids fun kids hk => member_yields hk
  | assignmentExpression | binaryExpression | logicalExpression =>
    exact hkids fun kids hk => (one_yields hk).bind fun left hl => (one_yields hk).bind
      fun right hr => .pure (hoperator hl hr)
  | variableDeclaration =>
    refine hkids fun kids hk => (many_yields hk comma_paired).bind fun declarators hd => .pure ?_
    have hkind : Paired (if node.kind.isEmpty then "var" else node.kind) := by
      split
      · exact .text rfl fun _ => rfl
      · exact .of_plain hn.kind
    exact fun level => ((hkind level).andText rfl rfl).andCode hd
  | variableDeclarator =>
    refine hkids fun kids hk => (one_yields hk).bind fun id hid => ?_
    split
    · next init hi =>
      exact (Yields.part (tidy_of_one? hk hi)).bind fun init hi =>
        .pure fun level => ((hid level).andText rfl rfl).andCode hi
    · exact .pure hid
  | expressionStatement => exact hkids fun kids hk => one_yields hk
  | callExpression =>
    exact hkids fun kids hk => (one_yields hk).bind fun callee hc =>
      (many_yields hk comma_paired).bind fun args ha =>
        .pure fun level => (((hc level).andText rfl rfl).andCode ha).andText rfl rfl
  | newExpression =>
    exact hkids fun kids hk => (one_yields hk).bind fun callee hc =>
      (many_yields hk comma_paired).bind fun args ha => .pure fun _ =>
        ((((Leads.text rfl rfl).andCode hc).andText rfl rfl).andCode ha).andText rfl rfl
  | functionDeclaration | functionExpression | arrowFunctionExpression =>
    exact hkids fun kids hk => function_yields hk
  | blockStatement =>
    refine hkids fun kids hk => ?_
    split
    · exact .pure Paired.empty.braces
    · exact (many_yields hk semicolon_paired).bind fun body hb =>
        .pure (.braces fun _ => ((Leads.text rfl rfl).andCode hb).andText rfl rfl)
  | program =>
    refine hkids fun kids hk => ?_
    split
    · exact .pure Paired.empty.braces
    · exact many_yields hk semicolon_paired
  | ifStatement =>
    refine hkids fun kids hk => (one_yields hk).bind fun test ht => (one_yields hk).bind
      fun consequent hc => ?_
    have hhead : Paired ("if (" ++ test ++ ") " ++ braced consequent) :=
      fun _ => (((Leads.text rfl rfl).andCode ht).andText rfl rfl).andCode hc.braced
    split
    · next alternate ha =>
      exact (Yields.part (tidy_of_one? hk ha)).bind fun alternate ha =>
        .pure fun level => ((hhead level).andText rfl rfl).andCode ha.braced
    · exact .pure hhead
  | conditionalExpression =>
    exact hkids fun kids hk => (one_yields hk).bind fun test ht => (one_yields hk).bind
      fun consequent hc => (one_yields hk).bind fun alternate ha => .pure fun _ =>
        ((((Leads.text rfl rfl).andCode ht).andText rfl rfl).andCode hc).andText rfl rfl
          |>.andCode ha
  | tryStatement =>
    refine hkids fun kids hk => (one_yields hk).bind fun block hb => ?_
    extract_lets withHandler
    have hhandler : ∀ handler, Paired handler → Yields render Paired (withHandler handler) := by
      intro handler hh
      unfold withHandler
      extract_lets withFinalizer
      have hfinalizer : ∀ finalizer, Paired finalizer →
          Yields render Paired (withFinalizer finalizer) := fun finalizer hf =>
        .pure fun _ => (((Leads.text rfl rfl).andCode hb.braced).andCode hh).andCode hf
      split
      · next finalizer hf =>
        refine (Yields.part (tidy_of_one? hk hf)).bind fun code hc => ?_
        exact (Yields.pure fun _ => (Leads.text rfl rfl).andCode hc.braced).bind hfinalizer
      · exact (Yields.pure .empty).bind hfinalizer
    split
    · next handler hh =>
      refine (Yields.part (tidy_of_one? hk hh)).bind fun code hc => ?_
      exact (Yields.pure fun _ => (Leads.text rfl rfl).andCode hc).bind hhandler
    · exact (Yields.pure .empty).bind hhandler
  | catchClause =>
    exact hkids fun kids hk => (one_yields hk).bind fun param hp => (one_yields hk).bind
      fun body hb => .pure fun _ =>
        (((Leads.text rfl rfl).andCode hp).andText rfl rfl).andCode hb.braced
  | objectExpression =>
    exact hkids fun kids hk => (many_yields hk comma_paired).bind fun properties hp =>
      .pure hp.braces
  | property =>
    refine hkids fun kids hk => ?_
    extract_lets withKey
    have hkey : ∀ key, Paired key → Yields render Paired (withKey key) := fun key hc =>
      (one_yields hk).bind fun value hv =>
        .pure fun level => ((hc level).andText rfl rfl).andCode hv
    split
    · next key hchild =>
      have htidy := tidy_of_one? hk hchild
      split
      · refine (Yields.part htidy).bind fun code hc => ?_
        exact (Yields.pure fun _ => ((Leads.text rfl rfl).andCode hc).andText rfl rfl).bind hkey
      · exact (Yields.pure (propertyName_paired htidy.plain)).bind hkey
    · exact (Yields.pure .empty).bind hkey
  | arrayExpression =>
    exact hkids fun kids hk => (many_yields hk comma_paired).bind fun elements he =>
      .pure fun _ => ((Leads.text rfl rfl).andCode he).andText rfl rfl
  | updateExpression =>
    refine hkids fun kids hk => (one_yields hk).bind fun argument ha => .pure ?_
    split
    · exact hcode.append ha
    · exact ha.append hcode
  | unaryExpression =>
    refine hkids fun kids hk => (one_yields hk).bind fun argument ha => .pure ?_
    split
    · exact fun level => ((hcode level).andText rfl rfl).andCode ha
    · exact hcode.append ha
  | sequenceExpression => exact hkids fun kids hk => many_yields hk comma_paired
  | returnStatement | throwStatement =>
    refine hkids fun kids hk => ?_
    split
    · next argument ha =>
      exact (Yields.part (tidy_of_one? hk ha)).bind fun argument ha =>
        .pure fun _ => (Leads.text rfl rfl).andCode ha
    · exact .pure (.text rfl fun _ => rfl)
  | forStatement =>
    exact hkids fun kids hk => (one_yields hk).bind fun init hi => (one_yields hk).bind
      fun test ht => (one_yields hk).bind fun update hu => (one_yields hk).bind fun body hb =>
        .pure fun _ => (((((((Leads.text rfl rfl).andCode hi).andText rfl rfl).andCode ht).andText
          rfl rfl).andCode hu).andText rfl rfl).andCode hb.braced
  | forInStatement =>
    exact hkids fun kids hk => (one_yields hk).bind fun left hl => (one_yields hk).bind
      fun right hr => (one_yields hk).bind fun body hb => .pure fun _ =>
        (((((Leads.text rfl rfl).andCode hl).andText rfl rfl).andCode hr).andText rfl rfl).andCode
          hb.braced
  | whileStatement =>
    exact hkids fun kids hk => (one_yields hk).bind fun test ht => (one_yields hk).bind
      fun body hb => .pure fun _ =>
        (((Leads.text rfl rfl).andCode ht).andText rfl rfl).andCode hb.braced
  | doWhileStatement =>
    exact hkids fun kids hk => (one_yields hk).bind fun body hb => (one_yields hk).bind
      fun test ht => .pure fun _ =>
        ((((Leads.text rfl rfl).andCode hb.braced).andText rfl rfl).andCode ht).andText rfl rfl
  | switchStatement =>
    refine hkids fun kids hk => (one_yields hk).bind fun discriminant hd =>
      (many_yields hk (.text rfl fun _ => rfl)).bind fun cases hc => .pure fun _ => ?_
    have hcases : Paired (braces (" " ++ cases ++ " ")) :=
      .braces fun _ => ((Leads.text rfl rfl).andCode hc).andText rfl rfl
    exact (((Leads.text rfl rfl).andCode hd).andText rfl rfl).andCode hcases
  | switchCase =>
    refine hkids fun kids hk => (many_yields hk semicolon_paired).bind fun body hb => ?_
    split
    · next test ht =>
      exact (Yields.part (tidy_of_one? hk ht)).bind fun test ht =>
        .pure fun _ => (((Leads.text rfl rfl).andCode ht).andText rfl rfl).andCode hb
    · exact .pure fun _ => (Leads.text rfl rfl).andCode hb
  | breakStatement | continueStatement => exact .pure (.text rfl fun _ => rfl)
  | emptyStatement => exact .pure .empty
  | other name =>
    refine hkids fun kids hk => ?_
    split
    · exact .pure hcode
    · exact .joined semicolon_paired (Children.all_of_forall hk)

end Rendered

namespace Service

variable {g : Service} {short : Bool}

/-- Rendering keeps the level of brackets at every node above plain ones. -/
theorem renderUpTo_tidy {fuel : Nat} {node : Node} (hn : g.store.Holds node)
    (hp : ∀ below, g.store.Holds below →
      Relation.ReflTransGen g.store.AstStep node.id below.id → below.Plain) :
    Writing.Tidy (g.renderUpTo short fuel) node := by
  induction fuel generalizing node with
  | zero =>
    refine ⟨hp node hn .refl, fun rendered h => ?_⟩
    cases h
    exact .empty
  | succ fuel ih =>
    refine ⟨hp node hn .refl, fun rendered h => ?_⟩
    obtain ⟨⟨code, mentions⟩, hwrite, h⟩ := exists_of_bind h
    cases h
    refine Rendered.write_yields (hp node hn .refl) (fun kids hkids kid hm => ?_) _ _ _ hwrite
    have hchild := ((astChildren_agree (Alike.self g) node.id).of_ok hkids).2 kid hm
    exact ih hchild.holds fun below hb hbelow => hp below hb (.head hchild.astStep hbelow)

/-- The code of a node can be laid out, whatever the values of the literals in it, if what stands in
it as it is has neither quotes nor brackets. -/
theorem format_render {id : NodeId} {rendered : Rendered} (h : g.render id short = .ok rendered)
    (hp : ∀ node, g.store.Holds node → Relation.ReflTransGen g.store.AstStep id node.id →
      node.Plain) : ∃ text, format rendered.code = .ok text := by
  obtain ⟨node, hnode, hrender⟩ := exists_of_bind h
  have hheld := node?_of_node hnode
  obtain rfl := Store.id_of_node? hheld
  exact ((renderUpTo_tidy hheld hp).paired rendered hrender).exists_format

end Service

/-- The page `function f(a) { return g(")\"\\{", /a+/, { '(': a }) }`, of which one literal is a
regular expression. -/
def quotedPage : Store :=
  .ofLists
    [{ id := 1, type := .functionDeclaration }, { id := 2, type := .identifier, code := "f" },
     { id := 3, type := .identifier, code := "a" }, { id := 4, type := .blockStatement },
     { id := 5, type := .returnStatement }, { id := 6, type := .callExpression },
     { id := 7, type := .identifier, code := "g" },
     { id := 8, type := .literal, value := ")\"\\\x7b" },
     { id := 9, type := .literal, value := "\x7b\x7d", raw := "/a+/" },
     { id := 10, type := .objectExpression }, { id := 11, type := .property },
     { id := 12, type := .literal, value := "(" }, { id := 13, type := .identifier, code := "a" }]
    [{ source := 1, target := 2, relation := .ast, relationType := "id" },
     { source := 1, target := 3, relation := .ast, relationType := "params" },
     { source := 1, target := 4, relation := .ast, relationType := "body" },
     { source := 4, target := 5, relation := .ast, relationType := "body" },
     { source := 5, target := 6, relation := .ast, relationType := "argument" },
     { source := 6, target := 7, relation := .ast, relationType := "callee" },
     { source := 6, target := 8, relation := .ast, relationType := "arguments" },
     { source := 6, target := 9, relation := .ast, relationType := "arguments" },
     { source := 6, target := 10, relation := .ast, relationType := "arguments" },
     { source := 10, target := 11, relation := .ast, relationType := "properties" },
     { source := 11, target := 12, relation := .ast, relationType := "key" },
     { source := 11, target := 13, relation := .ast, relationType := "value" }]

/-- The brackets and quotes in the literals of the page do not count. -/
theorem Service.format_render_quotedPage :
    ∃ rendered, quotedPage.service.render 1 = .ok rendered ∧
      rendered.code =
        "function f(a) \x7b return g(\")\\\"\\\\\x7b\", /a+/, \x7b\"(\": a\x7d); \x7d" ∧
      (∀ node, quotedPage.Holds node → node.Plain) ∧
      ∃ text, format rendered.code = .ok text := by
  have hplain : ∀ node, quotedPage.Holds node → node.Plain := by
    have hall : ∀ node ∈ quotedPage.nodes, node.Plain := by decide +kernel
    exact fun node hn => hall node (Store.holds_iff_mem.mp hn)
  have hrender : quotedPage.service.render 1 = .ok
      { code :=
          "function f(a) \x7b return g(\")\\\"\\\\\x7b\", /a+/, \x7b\"(\": a\x7d); \x7d",
        literals := [")\"\\\x7b", "/a+/"], identifiers := ⟨[("a", 13), ("g", 7)]⟩ } := by
    decide +kernel
  exact ⟨_, hrender, rfl, hplain, Service.format_render hrender fun node hn _ => hplain node hn⟩

end RequestFlow

/-
What a rendering reads. The children that are written for a node, in the order
in which they are read, lead to the occurrences of names below it. A rendering
keeps of each name the last occurrence, in the place of the first.
-/
import RequestFlow.Proofs.Syntax.Printed
import RequestFlow.Proofs.Syntax.Rendering

namespace RequestFlow

/-! ## Names with their last occurrences -/

namespace IdentifierMap

variable {name other : String} {origin node : NodeId} {entries : List (String × NodeId)}

/-- The map after more occurrences of names. -/
def extend (map : IdentifierMap) (occurrences : List (String × NodeId)) : IdentifierMap :=
  occurrences.foldl (fun map (name, origin) => map.insert name origin) map

theorem append_eq_extend (map more : IdentifierMap) : map ++ more = map.extend more.entries := rfl

theorem extend_append (map : IdentifierMap) (occurrences more : List (String × NodeId)) :
    map.extend (occurrences ++ more) = (map.extend occurrences).extend more :=
  List.foldl_append

theorem put_put (name : String) (origin node : NodeId) (entries : List (String × NodeId)) :
    put name origin (put name node entries) = put name origin entries := by
  induction entries with
  | nil => simp [put]
  | cons entry entries ih =>
    simp only [put]
    split <;> simp [put, *]

/-- The place of a name that is there is not touched by other names. -/
theorem put_comm (hm : name ∈ entries.map (·.1)) (hne : other ≠ name) :
    put name origin (put other node entries) = put other node (put name origin entries) := by
  induction entries with
  | nil => cases hm
  | cons entry entries ih =>
    obtain ⟨first, seen⟩ := entry
    by_cases hn : first = name
    · subst hn
      simp [put, Ne.symm hne]
    · have hrest : name ∈ entries.map (·.1) := by simpa [Ne.symm hn] using hm
      by_cases ho : first = other
      · simp [put, ho, hne]
      · simp [put, hn, ho, ih hrest]

theorem mem_names_insert (map : IdentifierMap) (name other : String) (node : NodeId) :
    name ∈ (map.insert other node).names ↔ name ∈ map.names ∨ name = other := by
  rw [names_insert]
  split
  · next hm => exact ⟨.inl, fun h => h.elim id fun h => h ▸ hm⟩
  · simp

/-- A name that is there already may come in before or after others. -/
theorem extend_insert {map : IdentifierMap} (hm : name ∈ map.names)
    (hn : name ∉ entries.map (·.1)) :
    (map.extend entries).insert name origin = (map.insert name origin).extend entries := by
  induction entries generalizing map with
  | nil => rfl
  | cons entry entries ih =>
    obtain ⟨first, seen⟩ := entry
    obtain ⟨hfirst, hrest⟩ : name ≠ first ∧ name ∉ entries.map (·.1) := by simpa using hn
    have hswap : (map.insert first seen).insert name origin =
        (map.insert name origin).insert first seen := by
      simp only [insert]
      rw [put_comm hm (Ne.symm hfirst)]
    change ((map.insert first seen).extend entries).insert name origin =
      ((map.insert name origin).insert first seen).extend entries
    rw [ih ((mem_names_insert ..).mpr (.inl hm)) hrest, hswap]

theorem extend_put (hd : (entries.map (·.1)).Nodup) (map : IdentifierMap) :
    map.extend (put name origin entries) = (map.extend entries).insert name origin := by
  induction entries generalizing map with
  | nil => rfl
  | cons entry entries ih =>
    obtain ⟨first, seen⟩ := entry
    obtain ⟨hfirst, hrest⟩ := List.nodup_cons.mp hd
    rw [put]
    split
    · next he =>
      subst he
      change (map.insert first origin).extend entries =
        ((map.insert first seen).extend entries).insert first origin
      rw [extend_insert ((mem_names_insert ..).mpr (.inr rfl)) hfirst]
      simp only [insert, put_put]
    · exact ih hrest (map.insert first seen)

theorem ofList_concat (occurrences : List (String × NodeId)) (entry : String × NodeId) :
    ofList (occurrences ++ [entry]) = (ofList occurrences).insert entry.1 entry.2 := by
  rw [ofList, List.foldl_append]
  rfl

theorem nodup_names_ofList (occurrences : List (String × NodeId)) :
    (ofList occurrences).names.Nodup := by
  induction occurrences using List.reverseRecOn with
  | nil => exact .nil
  | append_singleton occurrences entry ih =>
    rw [ofList_concat, names_insert]
    split
    · exact ih
    · next hm =>
      refine List.nodup_append.mpr ⟨ih, by simp, ?_⟩
      rintro name hname _ hlast rfl
      exact hm (List.mem_singleton.mp hlast ▸ hname)

theorem mem_names_ofList {occurrences : List (String × NodeId)} :
    name ∈ (ofList occurrences).names ↔ ∃ origin, (name, origin) ∈ occurrences := by
  induction occurrences using List.reverseRecOn with
  | nil => simp [ofList, names]
  | append_singleton occurrences entry ih =>
    obtain ⟨last, seen⟩ := entry
    rw [ofList_concat, mem_names_insert, ih]
    simp [exists_or]

/-- The last occurrences are all that counts. -/
theorem append_ofList (map : IdentifierMap) (occurrences : List (String × NodeId)) :
    map ++ ofList occurrences = map.extend occurrences := by
  induction occurrences using List.reverseRecOn with
  | nil => rfl
  | append_singleton occurrences entry ih =>
    rw [ofList_concat, append_eq_extend, insert, extend_put (nodup_names_ofList occurrences),
      ← append_eq_extend, ih, extend_append]
    rfl

theorem mem_insert {map : IdentifierMap} (hd : map.names.Nodup) :
    (other, node) ∈ (map.insert name origin).entries ↔
      if other = name then node = origin else (other, node) ∈ map.entries := by
  obtain ⟨entries⟩ := map
  change (entries.map (·.1)).Nodup at hd
  change (other, node) ∈ put name origin entries ↔ _
  induction entries with
  | nil => by_cases h : other = name <;> simp [put, h]
  | cons entry entries ih =>
    obtain ⟨first, seen⟩ := entry
    obtain ⟨hfirst, hrest⟩ := List.nodup_cons.mp hd
    have hin : (other, node) ∈ entries → other ∈ entries.map (·.1) :=
      fun hm => List.mem_map_of_mem hm
    rw [put]
    split
    · next he =>
      subst he
      by_cases ho : other = first
      · subst ho
        have hnot : (other, node) ∉ entries := fun hm => hfirst (hin hm)
        simp [hnot]
      · simp [ho]
    · next hne =>
      rw [List.mem_cons, ih hrest]
      by_cases ho : other = name
      · simp [ho, Ne.symm hne]
      · simp [ho]

/-- A name is kept with its last occurrence. -/
theorem mem_ofList {occurrences : List (String × NodeId)} :
    (name, origin) ∈ (ofList occurrences).entries ↔
      occurrences.reverse.lookup name = some origin := by
  induction occurrences using List.reverseRecOn with
  | nil => simp [ofList]
  | append_singleton occurrences entry ih =>
    rw [ofList_concat, mem_insert (nodup_names_ofList occurrences), ih, List.reverse_append,
      List.reverse_singleton, List.singleton_append, List.lookup_cons]
    by_cases h : name = entry.1
    · simp [h, eq_comm]
    · rw [if_neg h, beq_eq_false_iff_ne.mpr h]

end IdentifierMap

/-! ## Children in the order in which they are read -/

/-- The name that a node stands for, if it is an occurrence of one. -/
def Node.name? (node : Node) : Option String :=
  match node.type with
  | .identifier => some node.code
  | .thisExpression => some thisIdentifier
  | _ => none

namespace Rendered

/-- The property of a member expression, unless it is a plain name. -/
def readProperty? (node : Node) (kids : Children Node) : Option Node :=
  (kids.one? "property" (some 1)).filter fun property =>
    node.computed || property.type != .identifier

/-- The key of a property, if it is computed. -/
def readKey? (node : Node) (kids : Children Node) : Option Node :=
  (kids.one? "key" (some 0)).filter fun _ => node.computed

/-- The children that are written for a node, in the order in which they are read. Names of
properties and of functions are no occurrences. -/
def reads (short : Bool) (node : Node) (kids : Children Node) : List Node :=
  let one role position := (kids.one? role (some position)).toList
  match node.type with
  | .literal | .identifier | .thisExpression | .breakStatement | .continueStatement
  | .emptyStatement => []
  | .memberExpression => one "object" 0 ++ (readProperty? node kids).toList
  | .assignmentExpression | .binaryExpression | .logicalExpression => one "left" 0 ++ one "right" 1
  | .variableDeclaration => kids.many "declarations" (some 0)
  | .variableDeclarator => one "id" 0 ++ one "init" 1
  | .expressionStatement => one "expression" 0
  | .callExpression | .newExpression => one "callee" 0 ++ kids.many "arguments" (some 1)
  | .functionDeclaration | .functionExpression | .arrowFunctionExpression =>
    kids.many "params" (some 0) ++ if short then [] else (functionBody? kids).toList
  | .blockStatement | .program => kids.many "body" (some 0)
  | .ifStatement | .conditionalExpression =>
    one "test" 0 ++ one "consequent" 1 ++ one "alternate" 2
  | .tryStatement => one "block" 0 ++ one "handler" 1 ++ one "finalizer" 2
  | .catchClause => one "param" 0 ++ one "body" 1
  | .objectExpression => kids.many "properties" (some 0)
  | .property => (readKey? node kids).toList ++ one "value" 1
  | .arrayExpression => kids.many "elements" (some 0)
  | .updateExpression | .unaryExpression | .returnStatement | .throwStatement => one "argument" 0
  | .sequenceExpression => kids.many "expressions" (some 0)
  | .forStatement => one "init" 0 ++ one "test" 1 ++ one "update" 2 ++ one "body" 3
  | .forInStatement => one "left" 0 ++ one "right" 1 ++ one "body" 2
  | .whileStatement => one "test" 0 ++ one "body" 1
  | .doWhileStatement => one "body" 0 ++ one "test" 1
  | .switchStatement => one "discriminant" 0 ++ kids.many "cases" (some 1)
  | .switchCase => kids.many "consequent" (some 1) ++ (kids.one? "test" none).toList
  | .other _ => kids.all

end Rendered

namespace Service

/-- The occurrences of names in at most `fuel` levels of the syntax tree, in reading order. -/
def occurrencesUpTo (g : Service) (short : Bool) : (fuel : Nat) → Node → List (String × NodeId)
  | 0, _ => []
  | fuel + 1, node => match node.name? with
    | some name => [(name, node.id)]
    | none =>
      (Rendered.reads short node ((g.astChildren node.id).toOption.getD [])).flatMap
        (g.occurrencesUpTo short fuel)

/-- The occurrences of names that the rendering of a node reads, in the order in which it reads
them. -/
def occurrences (g : Service) (node : Node) (short : Bool := false) : List (String × NodeId) :=
  g.occurrencesUpTo short (g.store.nodeCount + 1) node

end Service

/-! ## Writing -/

namespace Writing

variable {α β : Type} {render : Renderer} {found : Node → List (String × NodeId)}
  {l l' : List (String × NodeId)}

/-- Where `w` ends well, it has mentioned these occurrences. -/
def Meets (render : Renderer) (w : Writing α) (l : List (String × NodeId)) : Prop :=
  ∀ m a m', (w.run render).run m = .ok (a, m') → m'.identifiers = m.identifiers.extend l

/-- A child that is rendered is rendered with the last occurrences of these. -/
def Finds (render : Renderer) (found : Node → List (String × NodeId)) : Prop :=
  ∀ child rendered, render child = .ok rendered → rendered.identifiers = .ofList (found child)

namespace Meets

theorem pure (a : α) : Meets render (pure a) [] := by
  intro m a m' h
  cases h
  rfl

theorem bind {w : Writing α} {f : α → Writing β} (hw : Meets render w l)
    (hf : ∀ a, Meets render (f a) l') : Meets render (w >>= f) (l ++ l') := by
  intro m b m' h
  change ((w.run render).run m >>= fun p => ((f p.1).run render).run p.2) = _ at h
  obtain ⟨⟨a, m₁⟩, h₁, h₂⟩ := exists_of_bind h
  rw [hf a _ _ _ h₂, hw _ _ _ h₁, IdentifierMap.extend_append]

/-- What is written around it changes nothing. -/
theorem text {w : Writing α} {f : α → β} (hw : Meets render w l) :
    Meets render (w >>= fun a => Pure.pure (f a)) l := by
  have h := hw.bind fun a => pure (f a)
  rwa [List.append_nil] at h

theorem lift {x : Except GraphFault α} {f : α → Writing β}
    (h : ∀ a, x = .ok a → Meets render (f a) l) : Meets render (liftM x >>= f) l := by
  intro m b m' hrun
  cases x with
  | error fault => cases hrun
  | ok a => exact h a rfl _ _ _ hrun

theorem part (hr : Finds render found) (child : Node) :
    Meets render (part child) ([child].flatMap found) := by
  intro m a m' h
  rw [run_part] at h
  obtain ⟨rendered, hc, h⟩ := exists_of_bind h
  cases h
  rw [List.flatMap_singleton, hr child rendered hc, IdentifierMap.append_ofList]

theorem part? (hr : Finds render found) (child : Option Node) :
    Meets render (part? child) (child.toList.flatMap found) := by
  cases child with
  | none => exact pure ""
  | some child => exact part hr child

theorem parts (hr : Finds render found) (children : List Node) :
    Meets render (parts children) (children.flatMap found) := by
  induction children with
  | nil => exact pure []
  | cons child rest ih =>
    have hfirst := part hr child
    rw [List.flatMap_singleton] at hfirst
    exact hfirst.bind fun _ => ih.text

theorem joined (hr : Finds render found) (separator : String) (children : List Node) :
    Meets render (joined separator children) (children.flatMap found) :=
  (parts hr children).text

theorem mentionName (name : String) (origin : NodeId) :
    Meets render (mentionName name origin) [(name, origin)] := by
  intro m a m' h
  cases h
  rfl

theorem mentionLiteral (value : String) : Meets render (mentionLiteral value) [] := by
  intro m a m' h
  cases h
  rfl

end Meets

end Writing

namespace Rendered

open Writing

variable {render : Renderer} {found : Node → List (String × NodeId)} {node : Node}
  {kids : Children Node}

theorem literal_meets : Meets render (literal node) [] := by
  unfold literal
  split <;> exact (Meets.mentionLiteral _).text

theorem member_meets (hr : Finds render found) : Meets render (member node kids)
    ((kids.one? "object" (some 0)).toList.flatMap found ++
      (readProperty? node kids).toList.flatMap found) := by
  unfold member readProperty?
  refine (Meets.part? hr _).bind fun object => ?_
  cases kids.one? "property" (some 1) with
  | none => exact .pure object
  | some property =>
    dsimp only
    split
    · next h =>
      have hread : (node.computed || property.type != .identifier) = true := by
        cases hc : node.computed <;> simp_all
      simpa [Option.filter, hread] using (Meets.part hr property).text
    · next h =>
      split
      · next hi =>
        have hread : (node.computed || property.type != .identifier) = false := by simp_all
        simpa [Option.filter, hread] using Meets.pure _
      · next hi =>
        have hread : (node.computed || property.type != .identifier) = true := by simp_all
        simpa [Option.filter, hread] using (Meets.part hr property).text

theorem function_meets (hr : Finds render found) (short : Bool) :
    Meets render (function short node kids) ((kids.many "params" (some 0)).flatMap found ++
      (if short then [] else (functionBody? kids).toList).flatMap found) := by
  unfold function
  extract_lets name
  refine (Meets.joined hr _ _).bind fun params => ?_
  extract_lets arrow head
  cases short with
  | true => exact .pure _
  | false =>
    cases functionBody? kids with
    | none => exact (Meets.pure _).text
    | some body => exact (Meets.part hr body).text

/-- Each kind of node mentions itself, or what its children mention in the order of `reads`. -/
theorem write_meets (hr : Finds render found) (short : Bool) (x : Except GraphFault (Children Node)) :
    Meets render (write short node x) (match node.name? with
      | some name => [(name, node.id)]
      | none => (reads short node (x.toOption.getD [])).flatMap found) := by
  unfold write
  split
  case h_1 h =>
    simp only [Node.name?, reads, h]
    exact literal_meets
  case h_2 h =>
    simp only [Node.name?, h]
    exact (Meets.mentionName _ _).text
  case h_3 h =>
    simp only [Node.name?, h]
    exact (Meets.mentionName _ _).text
  all_goals
    next h =>
    simp only [Node.name?, reads, h, List.flatMap_nil]
    first
    | with_reducible exact .pure _
    | refine .lift fun kids hk => ?_
      rw [hk]
      simp only [Except.toOption, Option.getD_some, List.flatMap_append, List.append_assoc]
      -- Children are written one after the other, some of them only when they are there.
      with_reducible
        repeat'
          first
            | exact member_meets hr
            | exact function_meets hr short
            | exact .part? hr _
            | exact .joined hr _ _
            | exact .text (.part? hr _)
            | exact .text (.joined hr _ _)
            | exact .text (.part hr _)
            | exact .pure _
            | refine .bind (.part? hr _) fun _ => ?_
            | refine .bind (.joined hr _ _) fun _ => ?_
            | refine .bind (.part hr _) fun _ => ?_
            | (generalize kids.many "body" (some 0) = statements
               cases statements <;> simp only [List.flatMap_nil])
            | (generalize kids.all = parts
               cases parts <;> simp only [List.flatMap_nil])
            | (split <;> rename_i heq <;>
                simp only [heq, pure_bind, readKey?, Option.toList_some, Option.toList_none,
                  Option.filter_some, Option.filter_none, List.flatMap_nil, List.nil_append])

end Rendered

namespace Service

/-- **A rendering keeps the last occurrence of each name it reads.** -/
theorem identifiers_renderUpTo (g : Service) (short : Bool) (fuel : Nat) :
    Writing.Finds (g.renderUpTo short fuel) (g.occurrencesUpTo short fuel) := by
  induction fuel with
  | zero =>
    intro node rendered h
    cases h
    rfl
  | succ fuel ih =>
    intro node rendered h
    unfold renderUpTo Rendered.ofChildren at h
    obtain ⟨⟨code, mentions⟩, hwrite, h⟩ := exists_of_bind h
    cases h
    exact Rendered.write_meets ih short _ _ _ _ hwrite

theorem identifiers_renderNode {g : Service} {node : Node} {short : Bool} {rendered : Rendered}
    (h : g.renderNode node short = .ok rendered) :
    rendered.identifiers = .ofList (g.occurrences node short) :=
  g.identifiers_renderUpTo short _ node rendered h

end Service

end RequestFlow

/-
Tables of edges are read back as they were written, and a graph read with more
edges is the graph with these edges at the end.
-/
import Mathlib.Data.List.Forall2
import RequestFlow.Graph.Table
import RequestFlow.Proofs.Agreement
import RequestFlow.Proofs.Graph.Store
import RequestFlow.Proofs.Text

namespace RequestFlow

namespace Table

/-- A text that stands for itself as a field of a row. -/
def Plain (s : String) : Prop :=
  ∀ c ∈ s.toList, c ≠ delimiter ∧ c ≠ '\n' ∧ c ≠ '\r' ∧ c ≠ '"'

instance (s : String) : Decidable (Plain s) := List.decidableBAll _ s.toList

theorem plain_toString (n : Nat) : Plain (toString n) := by
  rw [Plain, Nat.toString_eq_ofList_toDigits, String.toList_ofList]
  intro c hc
  have hd : c.isDigit = true := Nat.isDigit_of_mem_toDigits (by decide) (by decide) hc
  refine ⟨?_, ?_, ?_, ?_⟩ <;> rintro rfl <;> exact absurd hd (by decide)

theorem unquote_of_plain {s : String} (h : Plain s) : unquote s.toList = s.toList := by
  have hkeep : Chars.dropTailWhile (fun c => c == '\r' || c == '\n') s.toList = s.toList :=
    Chars.dropTailWhile_of_forall fun c hc => by simp [(h c hc).2.1, (h c hc).2.2.1]
  rw [unquote, hkeep]
  split
  · next rest hs =>
    have := (h '"' (by rw [hs]; exact List.mem_cons_self)).2.2.2
    exact absurd rfl this
  · rfl

/-! ## Rows -/

/-- The rows of a table without their numbers. -/
def rows (lines : List (List Char)) : List (List String) :=
  (lines.filter fun line => !line.all isBlank).map splitRow

theorem rows_append (lines more : List (List Char)) :
    rows (lines ++ more) = rows lines ++ rows more := by
  rw [rows, List.filter_append, List.map_append, rows, rows]

theorem rows_of_blank {line : List Char} (h : line.all isBlank = true) : rows [line] = [] := by
  simp [rows, h]

theorem rows_of_not_blank {lines : List (List Char)}
    (h : ∀ line ∈ lines, line.all isBlank = false) : rows lines = lines.map splitRow := by
  rw [rows, List.filter_eq_self.mpr fun line hm => by simp [h line hm]]

theorem map_numberedRows (lines : List (List Char)) :
    (numberedRows lines).map (·.2) = rows lines := by
  have hfilter : ∀ k, ((lines.zipIdx k).filter fun pair => !pair.1.all isBlank).map (·.1) =
      lines.filter fun line => !line.all isBlank := by
    induction lines with
    | nil => exact fun _ => rfl
    | cons line lines ih =>
      intro k
      cases hb : line.all isBlank <;> simp only [List.zipIdx_cons, List.filter_cons, hb, Bool.not_true,
        Bool.not_false, Bool.false_eq_true, if_true, if_false, List.map_cons, ih]
  rw [rows, ← hfilter 2, numberedRows, List.map_map, List.map_map]
  rfl

section

variable {α : Type} {readRow : Header → Nat → List String → Except RowFault α}

/-- Whether a row can be read, and as what, does not depend on its number. -/
def Unnumbered (readRow : Header → Nat → List String → Except RowFault α) : Prop :=
  ∀ header row fields a, readRow header row fields = .ok a ↔ readRow header 0 fields = .ok a

theorem readRows_of_lines_nil {text : String} (hl : Chars.lines text.toList = []) :
    readRows readRow text = .ok [] := by
  rw [readRows, hl]

/-- A table is read row by row. -/
theorem readRows_eq_ok (hr : Unnumbered readRow) {text : String} {header : List Char}
    {lines : List (List Char)} (hl : Chars.lines text.toList = header :: lines) {as : List α} :
    readRows readRow text = .ok as ↔
      List.Forall₂ (fun fields a => readRow (.ofLine header) 0 fields = .ok a) (rows lines) as := by
  have hrows : ∀ {numbered : List (Nat × List String)} {as : List α},
      (numbered.mapM fun pair => readRow (.ofLine header) pair.1 pair.2) = .ok as ↔
        List.Forall₂ (fun fields a => readRow (.ofLine header) 0 fields = .ok a)
          (numbered.map (·.2)) as := by
    intro numbered
    induction numbered with
    | nil =>
      intro as
      rw [List.map_nil, List.forall₂_nil_left_iff]
      exact ⟨fun h => (Except.ok.inj h).symm, fun h => h ▸ rfl⟩
    | cons first rest ih =>
      obtain ⟨row, fields⟩ := first
      intro as
      rw [List.mapM_cons, List.map_cons, List.forall₂_cons_left_iff]
      constructor
      · intro h
        obtain ⟨a, hfirst, h⟩ := exists_of_bind h
        obtain ⟨others, hrest, h⟩ := exists_of_bind h
        cases h
        exact ⟨a, others, (hr _ _ _ _).mp hfirst, ih.mp hrest, rfl⟩
      · rintro ⟨a, others, hfirst, hrest, rfl⟩
        dsimp only at hfirst ⊢
        rw [(hr _ row _ _).mpr hfirst, ih.mpr hrest]
        rfl
  rw [readRows, hl, ← map_numberedRows]
  exact hrows

end

theorem readId_eq_ok {row : Nat} {part field : String} {id : NodeId} :
    readId row part field = .ok id ↔ NodeId.read field = .ok id := by
  rw [readId]
  cases NodeId.read field <;> simp [Except.mapError]

theorem unnumbered_readNode : Unnumbered readNode := by
  have hwith : ∀ {header : Header} {row fields node}, readNode header row fields = .ok node →
      ∀ row', readNode header row' fields = .ok node := by
    intro header row fields node h row'
    obtain ⟨id, hid, h⟩ := exists_of_bind h
    rw [readId_eq_ok] at hid
    rw [readNode, readId_eq_ok.mpr hid]
    exact h
  exact fun _ _ _ _ => ⟨fun h => hwith h 0, fun h => hwith h _⟩

theorem unnumbered_readEdge : Unnumbered readEdge := by
  have hwith : ∀ {header : Header} {row fields edge}, readEdge header row fields = .ok edge →
      ∀ row', readEdge header row' fields = .ok edge := by
    intro header row fields edge h row'
    obtain ⟨source, hsource, h⟩ := exists_of_bind h
    obtain ⟨target, htarget, h⟩ := exists_of_bind h
    rw [readId_eq_ok] at hsource htarget
    rw [readEdge, readId_eq_ok.mpr hsource, readId_eq_ok.mpr htarget]
    exact h
  exact fun _ _ _ _ => ⟨fun h => hwith h 0, fun h => hwith h _⟩

/-! ## Edges -/

/-- An edge that can be written without loss. -/
structure Writable (edge : Edge) : Prop where
  source : edge.source < wordBound
  target : edge.target < wordBound
  relation : Relation.ofName edge.relation.name = edge.relation
  name : Plain edge.relation.name
  relationType : Plain edge.relationType
  arguments : Plain edge.arguments

instance (edge : Edge) : Decidable (Writable edge) :=
  decidable_of_iff (edge.source < wordBound ∧ edge.target < wordBound ∧
      Relation.ofName edge.relation.name = edge.relation ∧ Plain edge.relation.name ∧
      Plain edge.relationType ∧ Plain edge.arguments)
    ⟨fun ⟨h₁, h₂, h₃, h₄, h₅, h₆⟩ => ⟨h₁, h₂, h₃, h₄, h₅, h₆⟩,
      fun h => ⟨h.source, h.target, h.relation, h.name, h.relationType, h.arguments⟩⟩

/-- The fields of an edge. -/
def edgeFields (edge : Edge) : List String :=
  [toString edge.source, toString edge.target, edge.relation.name, edge.relationType,
    edge.arguments]

theorem edgeLine_toList (edge : Edge) :
    (edgeLine edge).toList = List.intercalate [delimiter] ((edgeFields edge).map String.toList) := by
  rw [edgeLine, String.toList_intercalate]
  rfl

variable {edge : Edge}

theorem Writable.plain (h : Writable edge) : ∀ field ∈ edgeFields edge, Plain field := by
  simp only [edgeFields, List.forall_mem_cons, List.not_mem_nil, false_imp_iff, implies_true]
  exact ⟨plain_toString _, plain_toString _, h.name, h.relationType, h.arguments, trivial⟩

theorem Writable.splitRow_edgeLine (h : Writable edge) :
    splitRow (edgeLine edge).toList = edgeFields edge := by
  rw [splitRow, edgeLine_toList, Chars.fields_intercalate (by simp [edgeFields])]
  · rw [List.map_map]
    refine (List.map_congr_left fun field hf => ?_).trans (List.map_id _)
    rw [Function.comp_apply, unquote_of_plain (h.plain field hf), String.ofList_toList, id]
  · intro piece hp hm
    obtain ⟨field, hf, rfl⟩ := List.mem_map.mp hp
    exact (h.plain field hf _ hm).1 rfl

/-- The table that edges are written to names its columns in the order of the fields. -/
theorem get_edgeHeader (source target name relationType arguments : String) :
    let header := Header.ofLine edgeHeader.toList
    let get := header.get [source, target, name, relationType, arguments]
    get (header.marked "START_ID") = source ∧ get (header.marked "END_ID") = target ∧
    get (header.marked "TYPE") = name ∧ get "RelationType" = relationType ∧
    get "Arguments" = arguments := by
  have hpositions : let header := Header.ofLine edgeHeader.toList
      header.position? (header.marked "START_ID") = some 0 ∧
      header.position? (header.marked "END_ID") = some 1 ∧
      header.position? (header.marked "TYPE") = some 2 ∧
      header.position? "RelationType" = some 3 ∧ header.position? "Arguments" = some 4 := by
    decide +kernel
  intro header get
  obtain ⟨hsource, htarget, htype, hrelation, harguments⟩ := hpositions
  simp only [get, header, Header.get, hsource, htarget, htype, hrelation, harguments]
  exact ⟨rfl, rfl, rfl, rfl, rfl⟩

/-- An edge is read from its fields, in whatever way its source is written. -/
theorem Writable.readEdge_source (h : Writable edge) {source : String}
    (hs : NodeId.read source = .ok edge.source) (row : Nat) :
    readEdge (.ofLine edgeHeader.toList) row (source :: (edgeFields edge).tail) = .ok edge := by
  obtain ⟨hsource, htarget, htype, hrelation, harguments⟩ := get_edgeHeader source
    (toString edge.target) edge.relation.name edge.relationType edge.arguments
  simp only [readEdge, edgeFields, List.tail_cons, readId, hsource, htarget, htype, hrelation,
    harguments, hs, NodeId.read_toString h.target, h.relation]
  rfl

theorem Writable.readEdge_edgeFields (h : Writable edge) (row : Nat) :
    readEdge (.ofLine edgeHeader.toList) row (edgeFields edge) = .ok edge :=
  h.readEdge_source (NodeId.read_toString h.source) row

/-- What the line of an edge is made of. -/
theorem mem_edgeLine {c : Char} : c ∈ (edgeLine edge).toList ↔
    c = delimiter ∨ ∃ field ∈ edgeFields edge, c ∈ field.toList := by
  simp only [edgeLine_toList, edgeFields, List.map_cons, List.map_nil, List.intercalate_cons_cons,
    List.intercalate_singleton, List.mem_append, List.mem_cons, List.not_mem_nil,
    or_false, exists_eq_or_imp, exists_eq_left]
  grind

theorem Writable.not_mem_edgeLine (h : Writable edge) :
    '\n' ∉ (edgeLine edge).toList ∧ '\r' ∉ (edgeLine edge).toList := by
  constructor
  · intro hm
    obtain hd | ⟨field, hf, hc⟩ := mem_edgeLine.mp hm
    · exact absurd hd (by decide)
    · exact (h.plain field hf _ hc).2.1 rfl
  · intro hm
    obtain hd | ⟨field, hf, hc⟩ := mem_edgeLine.mp hm
    · exact absurd hd (by decide)
    · exact (h.plain field hf _ hc).2.2.1 rfl

theorem edgeLine_not_blank (edge : Edge) : (edgeLine edge).toList.all isBlank = false := by
  rw [List.all_eq_false]
  exact ⟨delimiter, mem_edgeLine.mpr (.inl rfl), by decide⟩

theorem rows_edgeLines {edges : List Edge} (h : ∀ edge ∈ edges, Writable edge) :
    rows (edges.map fun edge => (edgeLine edge).toList) = edges.map edgeFields := by
  rw [rows_of_not_blank, List.map_map]
  · refine List.map_congr_left fun edge he => ?_
    rw [Function.comp_apply, (h edge he).splitRow_edgeLine]
  · rw [List.forall_mem_map]
    exact fun edge _ => edgeLine_not_blank edge

/-- The fields of edges are read as these edges. -/
theorem forall₂_edgeFields {edges : List Edge} (h : ∀ edge ∈ edges, Writable edge) :
    List.Forall₂ (fun fields edge => readEdge (.ofLine edgeHeader.toList) 0 fields = .ok edge)
      (edges.map edgeFields) edges := by
  rw [List.forall₂_map_left_iff, List.forall₂_same]
  exact fun edge he => (h edge he).readEdge_edgeFields 0

theorem lines_edgeLines {edges : List Edge} (h : ∀ edge ∈ edges, Writable edge) :
    Chars.lines (edgeLines edges).toList = edges.map fun edge => (edgeLine edge).toList := by
  have htext : edgeLines edges = String.join ((edges.map edgeLine).map (· ++ "\n")) := by
    rw [edgeLines, List.map_map]
    rfl
  rw [htext, Chars.lines_join, List.map_map]
  · rfl
  · rw [List.forall_mem_map]
    exact fun edge he => (h edge he).not_mem_edgeLine.1
  · rw [List.forall_mem_map]
    exact fun edge he => (h edge he).not_mem_edgeLine.2

/-- **A table of edges is read back as it was written.** -/
theorem readEdges_appendix {edges : List Edge} (h : ∀ edge ∈ edges, Writable edge) :
    readEdges (appendix true edges) = .ok edges := by
  have hlines : Chars.lines (appendix true edges).toList =
      edgeHeader.toList :: edges.map fun edge => (edgeLine edge).toList := by
    have htext : (appendix true edges).toList =
        edgeHeader.toList ++ '\n' :: (edgeLines edges).toList := by
      simp [appendix]
    rw [htext, Chars.lines_append_cons, Chars.fields_of_not_mem (by decide), lines_edgeLines h]
    rfl
  rw [readEdges, readRows_eq_ok unnumbered_readEdge hlines, rows_edgeLines h]
  exact forall₂_edgeFields h

end Table

/-! ## Graphs -/

namespace Store

variable {store : Store}

theorem foldl_insertEdge (store : Store) (edges : List Edge) :
    (edges.foldl insertEdge store).nodes = store.nodes ∧
      (edges.foldl insertEdge store).edges.toList = store.edges.toList ++ edges ∧
      (edges.foldl insertEdge store).created = store.created := by
  induction edges generalizing store with
  | nil => exact ⟨rfl, by simp, rfl⟩
  | cons edge edges ih =>
    obtain ⟨hn, he, hc⟩ := ih (store.insertEdge edge)
    refine ⟨hn, ?_, hc.trans (created_insertEdge store edge)⟩
    rw [List.foldl_cons, he, insertEdge]
    simp

theorem foldl_insertNode (store : Store) (nodes : List Node) :
    (nodes.foldl insertNode store).edges = store.edges ∧
      (nodes.foldl insertNode store).created = store.created ∧
      ∀ node ∈ (nodes.foldl insertNode store).nodes, node ∈ store.nodes ∨ node ∈ nodes := by
  induction nodes generalizing store with
  | nil => exact ⟨rfl, rfl, fun _ => .inl⟩
  | cons node nodes ih =>
    have hstep : (store.insertNode node).edges = store.edges ∧
        (store.insertNode node).created = store.created ∧
        ∀ other ∈ (store.insertNode node).nodes, other ∈ store.nodes ∨ other = node := by
      unfold insertNode
      split
      · next i hi =>
        exact ⟨rfl, rfl, fun other hm => Array.mem_or_eq_of_mem_set (w := store.slot_lt hi) hm⟩
      · exact ⟨rfl, rfl, fun other hm => Array.mem_push.mp hm⟩
    obtain ⟨he, hc, hn⟩ := ih (store.insertNode node)
    refine ⟨he.trans hstep.1, hc.trans hstep.2.1, fun other hm => ?_⟩
    rcases hn other hm with hm | hm
    · exact (hstep.2.2 other hm).imp_right fun h => by simp [h]
    · exact .inr (List.mem_cons_of_mem _ hm)

variable {nodes : List Node} {edges : List Edge}

/-- The edges of a graph that was read are those with both their nodes. -/
theorem ofTables_eq (nodes : List Node) (edges : List Edge) :
    (ofTables nodes edges).nodes = (nodes.foldl insertNode ∅).nodes ∧
      (ofTables nodes edges).edges.toList = edges.filter (fun edge =>
        (ofTables nodes edges).hasNode edge.source && (ofTables nodes edges).hasNode edge.target) ∧
      (ofTables nodes edges).created = #[] := by
  unfold ofTables
  extract_lets base
  obtain ⟨hn, he, hc⟩ := foldl_insertEdge base
    (edges.filter fun edge => base.hasNode edge.source && base.hasNode edge.target)
  obtain ⟨hbe, hbc, -⟩ := foldl_insertNode ∅ nodes
  refine ⟨hn, ?_, hc.trans hbc⟩
  simp only [hasNode_congr hn]
  rw [he, hbe]
  rfl

/-- A graph that was read has both ends of each of its edges. -/
theorem ofTables_closed (nodes : List Node) (edges : List Edge) : (ofTables nodes edges).Closed := by
  intro edge he
  rw [← Array.mem_toList_iff, (ofTables_eq nodes edges).2.1, List.mem_filter, Bool.and_eq_true] at he
  exact he.2

/-- A node of a graph that was read stands in the table. -/
theorem mem_of_hasNode_ofTables {id : NodeId} (h : (ofTables nodes edges).hasNode id = true) :
    ∃ node ∈ nodes, node.id = id := by
  obtain ⟨node, hn⟩ := hasNode_iff.mp h
  obtain ⟨hm, hid⟩ := node?_eq_some.mp hn
  rw [(ofTables_eq nodes edges).1] at hm
  rcases (foldl_insertNode ∅ nodes).2.2 node hm with hm | hm
  · exact absurd hm (Array.not_mem_empty node)
  · exact ⟨node, hm, hid⟩

/-- Edges between nodes of the graph come to its end. -/
theorem ofTables_append {more : List Edge} (h : ∀ edge ∈ more,
      (ofTables nodes edges).hasNode edge.source = true ∧
        (ofTables nodes edges).hasNode edge.target = true) :
    (ofTables nodes (edges ++ more)).nodes = (ofTables nodes edges).nodes ∧
      (ofTables nodes (edges ++ more)).edges.toList = (ofTables nodes edges).edges.toList ++ more ∧
      (ofTables nodes (edges ++ more)).created = #[] := by
  obtain ⟨hn, he, -⟩ := ofTables_eq nodes edges
  obtain ⟨hn', he', hc'⟩ := ofTables_eq nodes (edges ++ more)
  have hnodes : (ofTables nodes (edges ++ more)).nodes = (ofTables nodes edges).nodes :=
    hn'.trans hn.symm
  refine ⟨hnodes, ?_, hc'⟩
  have hmore : more.filter (fun edge => (ofTables nodes edges).hasNode edge.source &&
      (ofTables nodes edges).hasNode edge.target) = more := by
    refine List.filter_eq_self.mpr fun edge hm => ?_
    rw [(h edge hm).1, (h edge hm).2]
    rfl
  simp only [hasNode_congr hnodes] at he'
  rw [he', List.filter_append, hmore, ← he]

end Store

/-- The ids of nodes in a table are words. -/
theorem Table.id_lt_of_readNodes {text : String} {nodes : List Node}
    (h : readNodes text = .ok nodes) : ∀ node ∈ nodes, node.id < wordBound := by
  intro node hm
  unfold readNodes readRows at h
  split at h
  · cases h
    cases hm
  next header lines _ =>
  obtain ⟨⟨row, fields⟩, -, hread⟩ := (mem_mapM h).mp hm
  obtain ⟨id, hid, hread⟩ := exists_of_bind hread
  cases hread
  unfold readId at hid
  cases hnumber : NodeId.read ((Header.ofLine header).get fields "Id") with
  | error fault =>
    rw [hnumber] at hid
    cases hid
  | ok number =>
    rw [hnumber] at hid
    cases hid
    exact NodeId.lt_of_read hnumber

end RequestFlow

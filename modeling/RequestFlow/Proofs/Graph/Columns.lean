/-
Tables with quoted texts. A field in double quotes, with the quotes inside it
doubled, is read as the text it stands for; and since columns are found by their
names, a table is read back as it was written in whatever order they come.
-/
import RequestFlow.Proofs.Graph.Table

namespace RequestFlow

namespace Chars

/-- Every `c` twice. -/
def double (c : Char) (s : List Char) : List Char := s.flatMap fun d => if d = c then [c, c] else [d]

theorem mem_double {c d : Char} {s : List Char} : d ∈ double c s ↔ d ∈ s := by
  simp only [double, List.mem_flatMap]
  constructor
  · rintro ⟨e, he, hd⟩
    split at hd <;> simp_all
  · intro hd
    refine ⟨d, hd, ?_⟩
    split <;> simp_all

theorem undouble_cons_of_ne {c d : Char} (h : d ≠ c) (s : List Char) :
    undouble c (d :: s) = d :: undouble c s := by
  cases s with
  | nil => rfl
  | cons e s => rw [undouble, if_neg fun hd => h hd.1]

theorem undouble_double (c : Char) (s : List Char) : undouble c (double c s) = s := by
  induction s with
  | nil => rfl
  | cons d s ih =>
    rw [double, List.flatMap_cons, ← double]
    split
    · next hd =>
      rw [List.cons_append, List.singleton_append, undouble, if_pos ⟨rfl, rfl⟩, ih, hd]
    · next hd => rw [List.singleton_append, undouble_cons_of_ne hd, ih]

/-- A line that has something in it, and no more at its end than belongs to it. -/
structure IsLine (line : List Char) : Prop where
  ne_nil : line ≠ []
  newline : '\n' ∉ line
  last : line.getLast? ≠ some '\r'

/-- Lines put together, with or without an end after the last one. -/
theorem lines_intercalate {ls : List (List Char)} (hne : ls ≠ []) (h : ∀ line ∈ ls, IsLine line)
    {ending : List Char} (he : ending = [] ∨ ending = ['\n']) :
    lines (List.intercalate ['\n'] ls ++ ending) = ls := by
  have hfields : fields '\n' (List.intercalate ['\n'] ls) = ls :=
    fields_intercalate hne fun line hm => (h line hm).newline
  have hkeep : ∀ more : List (List Char), more ⊆ ls → more.map dropReturn = more := fun more hm =>
    (List.map_congr_left fun line hl => dropReturn_of_getLast? (h line (hm hl)).last).trans
      (List.map_id _)
  rcases he with rfl | rfl
  · obtain ⟨init, last, rfl⟩ := List.eq_nil_or_concat' ls |>.resolve_left hne
    have hlast := (h last (by simp)).ne_nil
    rw [List.append_nil, lines, hfields, close_append _ (by simp), hkeep init (by simp)]
    simp [lines.close, hlast]
  · rw [lines_append_cons, hfields, hkeep _ (fun _ hl => hl)]
    exact List.append_nil _

end Chars

namespace Table

/-! ## Fields -/

/-- The text that a field stands for. -/
def unquoted (field : String) : String := String.ofList (unquote field.toList)

/-- A text in double quotes, with every quote inside it doubled. -/
def quoted (text : String) : String :=
  String.ofList ('"' :: Chars.double '"' text.toList ++ ['"'])

theorem unquoted_quoted (text : String) : unquoted (quoted text) = text := by
  have hfield : (quoted text).toList = '"' :: (Chars.double '"' text.toList ++ ['"']) := by
    simp [quoted]
  have hkeep : Chars.dropTailWhile (fun c => c == '\r' || c == '\n') (quoted text).toList =
      (quoted text).toList := by
    rw [hfield, Chars.dropTailWhile]
    simp
  rw [unquoted, unquote, hkeep, hfield]
  simp [Chars.undouble_double]

theorem unquoted_of_plain {field : String} (h : Plain field) : unquoted field = field := by
  rw [unquoted, unquote_of_plain h, String.ofList_toList]

/-- A field that can stand in a row, also at its end. -/
structure InRow (field : String) : Prop where
  delimiter : delimiter ∉ field.toList
  newline : '\n' ∉ field.toList
  last : field.toList.getLast? ≠ some '\r'

theorem Plain.inRow {field : String} (h : Plain field) : InRow field where
  delimiter hm := (h _ hm).1 rfl
  newline hm := (h _ hm).2.1 rfl
  last hl := (h _ (List.mem_of_getLast? hl)).2.2.1 rfl

/-- A text that can stand in a row between quotes. -/
def Fits (text : String) : Prop := ∀ c ∈ text.toList, c ≠ delimiter ∧ c ≠ '\n'

instance (text : String) : Decidable (Fits text) := List.decidableBAll _ text.toList

theorem Fits.inRow {text : String} (h : Fits text) : InRow (quoted text) := by
  have hmem : ∀ c ∈ (quoted text).toList, c = '"' ∨ c ∈ text.toList := by
    intro c hc
    simp only [quoted, String.toList_ofList, List.cons_append, List.mem_cons, List.mem_append,
      Chars.mem_double, List.not_mem_nil, or_false] at hc
    rcases hc with hc | hc | hc
    · exact .inl hc
    · exact .inr hc
    · exact .inl hc
  refine ⟨fun hm => ?_, fun hm => ?_, ?_⟩
  · exact (hmem _ hm).elim (by decide) fun hc => (h _ hc).1 rfl
  · exact (hmem _ hm).elim (by decide) fun hc => (h _ hc).2 rfl
  · rw [quoted, String.toList_ofList, List.getLast?_concat]
    decide

/-! ## Lines -/

/-- Fields in a row. -/
def rowLine (fields : List String) : String := "¿".intercalate fields

variable {fields : List String}

theorem rowLine_toList (fields : List String) :
    (rowLine fields).toList = List.intercalate [delimiter] (fields.map String.toList) := by
  rw [rowLine, String.toList_intercalate]
  rfl

theorem splitRow_rowLine (hne : fields ≠ []) (h : ∀ field ∈ fields, InRow field) :
    splitRow (rowLine fields).toList = fields.map unquoted := by
  rw [splitRow, rowLine_toList, Chars.fields_intercalate (by simpa using hne), List.map_map]
  · rfl
  · rw [List.forall_mem_map]
    exact fun field hf => (h field hf).delimiter

theorem newline_not_mem_rowLine (h : ∀ field ∈ fields, InRow field) :
    '\n' ∉ (rowLine fields).toList := by
  rw [rowLine_toList]
  induction fields with
  | nil => simp
  | cons field rest ih =>
    obtain ⟨hf, hrest⟩ := List.forall_mem_cons.mp h
    cases rest with
    | nil => simpa using hf.newline
    | cons next rest =>
      have hd : '\n' ≠ delimiter := by decide
      rw [List.map_cons, List.map_cons, List.intercalate_cons_cons, ← List.map_cons, List.mem_append,
        List.mem_append, List.mem_singleton]
      exact not_or.mpr ⟨not_or.mpr ⟨hf.newline, hd⟩, ih hrest⟩

theorem getLast?_rowLine (h : ∀ field ∈ fields, InRow field) :
    (rowLine fields).toList.getLast? ≠ some '\r' := by
  rw [rowLine_toList]
  induction fields with
  | nil => simp
  | cons field rest ih =>
    obtain ⟨hf, hrest⟩ := List.forall_mem_cons.mp h
    cases rest with
    | nil => simpa using hf.last
    | cons next rest =>
      have hd : delimiter ≠ '\r' := by decide
      rw [List.map_cons, List.map_cons, List.intercalate_cons_cons, ← List.map_cons,
        List.getLast?_append, List.getLast?_append, List.getLast?_singleton]
      have hnext := ih hrest
      generalize (List.intercalate [delimiter] ((next :: rest).map String.toList)).getLast? = last
        at hnext ⊢
      cases last with
      | none => simpa using hd
      | some c => exact hnext

theorem rowLine_not_blank (hlen : 2 ≤ fields.length) :
    (rowLine fields).toList.all isBlank = false := by
  obtain ⟨first, rest, rfl⟩ := List.exists_cons_of_length_pos (Nat.lt_of_lt_of_le Nat.zero_lt_two hlen)
  obtain ⟨second, rest, rfl⟩ := List.exists_cons_of_length_pos (Nat.le_of_succ_le_succ hlen)
  rw [List.all_eq_false]
  refine ⟨delimiter, ?_, by decide⟩
  rw [rowLine_toList, List.map_cons, List.map_cons, List.intercalate_cons_cons]
  simp

theorem isLine_rowLine (hlen : 2 ≤ fields.length) (h : ∀ field ∈ fields, InRow field) :
    Chars.IsLine (rowLine fields).toList where
  ne_nil hnil := by
    have hb := rowLine_not_blank hlen
    rw [hnil] at hb
    cases hb
  newline := newline_not_mem_rowLine h
  last := getLast?_rowLine h

/-! ## Columns -/

/-- A column of a table: what stands in the header, the name it is found by, and the field that is
written for each entry. -/
structure Column (α : Type) where
  title : String
  name : String
  field : α → String
  plain : Plain title := by decide
  named : columnName title = name := by decide

variable {α : Type} {columns : List (Column α)}

/-- A table with one line for each entry. -/
def tableText (columns : List (Column α)) (entries : List α) : String :=
  "\n".intercalate (rowLine (columns.map (·.title)) ::
    entries.map fun entry => rowLine (columns.map (·.field entry)))

theorem ofLine_titles (hne : columns ≠ []) :
    Header.ofLine (rowLine (columns.map (·.title))).toList = ⟨columns.map (·.name)⟩ := by
  rw [Header.ofLine, splitRow_rowLine (by simpa using hne), List.map_map, List.map_map]
  · refine congrArg Header.mk (List.map_congr_left fun column _ => ?_)
    rw [Function.comp_apply, Function.comp_apply, unquoted_of_plain column.plain, column.named]
  · rw [List.forall_mem_map]
    exact fun column _ => column.plain.inRow

/-- A name that stands once among others is found where it stands. -/
theorem filter_zipIdx_of_nodup {names : List String} (hn : names.Nodup) {name : String} {i : Nat}
    (hi : names[i]? = some name) (k : Nat) :
    (names.zipIdx k).filter (·.1 == name) = [(name, k + i)] := by
  induction names generalizing i k with
  | nil => simp at hi
  | cons first rest ih =>
    obtain ⟨hfirst, hrest⟩ := List.nodup_cons.mp hn
    rw [List.zipIdx_cons, List.filter_cons]
    cases i with
    | zero =>
      obtain rfl : first = name := by simpa using hi
      have hnone : (rest.zipIdx (k + 1)).filter (·.1 == first) = [] := by
        rw [List.filter_eq_nil_iff]
        rintro ⟨other, j⟩ hm heq
        exact hfirst ((beq_iff_eq.mp heq) ▸ List.fst_mem_of_mem_zipIdx hm)
      simp [hnone]
    | succ i =>
      have hmem : name ∈ rest := List.mem_of_getElem? (by simpa using hi)
      have hne : (first == name) = false := beq_eq_false_iff_ne.mpr fun h => hfirst (h ▸ hmem)
      rw [hne, if_neg Bool.false_ne_true, ih hrest (by simpa using hi)]
      congr 2
      omega

/-- What stands in a column of a row is found under the name of the column. -/
theorem get_of_mem (hn : (columns.map (·.name)).Nodup) {column : Column α} (hm : column ∈ columns)
    (value : Column α → String) :
    Header.get ⟨columns.map (·.name)⟩ (columns.map value) column.name = value column := by
  obtain ⟨i, hi⟩ := List.getElem?_of_mem hm
  have hname : (columns.map (·.name))[i]? = some column.name := by simp [hi]
  rw [Header.get, Header.position?, filter_zipIdx_of_nodup hn hname]
  simp [hi]

/-- **A table is read back in any order of its columns**, if each row is read from what its fields
stand for. -/
theorem readRows_tableText {readRow : Header → Nat → List String → Except RowFault α}
    (hr : Unnumbered readRow) (hlen : 2 ≤ columns.length) {entries : List α}
    (hfield : ∀ entry ∈ entries, ∀ column ∈ columns, InRow (column.field entry))
    (hread : ∀ entry ∈ entries, readRow ⟨columns.map (·.name)⟩ 0
      (columns.map fun column => unquoted (column.field entry)) = .ok entry)
    {ending : String} (he : ending = "" ∨ ending = "\n") :
    readRows readRow (tableText columns entries ++ ending) = .ok entries := by
  have hne : columns ≠ [] := List.ne_nil_of_length_pos (Nat.lt_of_lt_of_le Nat.zero_lt_two hlen)
  have htitles : ∀ title ∈ columns.map (·.title), InRow title := by
    rw [List.forall_mem_map]
    exact fun column _ => column.plain.inRow
  have hrow : ∀ entry ∈ entries, ∀ field ∈ columns.map (·.field entry), InRow field := by
    intro entry hm
    rw [List.forall_mem_map]
    exact hfield entry hm
  have hlines : Chars.lines (tableText columns entries ++ ending).toList =
      (rowLine (columns.map (·.title))).toList ::
        entries.map fun entry => (rowLine (columns.map (·.field entry))).toList := by
    rw [tableText, String.toList_append, String.toList_intercalate, List.map_cons, List.map_map]
    refine Chars.lines_intercalate (by simp) ?_ (he.imp (congrArg String.toList) (congrArg String.toList))
    rw [List.forall_mem_cons, List.forall_mem_map]
    exact ⟨isLine_rowLine (by simpa using hlen) htitles,
      fun entry hm => isLine_rowLine (by simpa using hlen) (hrow entry hm)⟩
  rw [readRows_eq_ok hr hlines, ofLine_titles hne, rows_of_not_blank, List.map_map,
    List.forall₂_map_left_iff, List.forall₂_same]
  · intro entry hm
    rw [Function.comp_apply, splitRow_rowLine (by simpa using hne) (hrow entry hm), List.map_map]
    exact hread entry hm
  · rw [List.forall_mem_map]
    exact fun entry _ => rowLine_not_blank (by simpa using hlen)

/-! ## Nodes and edges -/

/-- A flag as it is written. -/
def flagText (flag : Bool) : String := if flag then "true" else "false"

theorem plain_flagText (flag : Bool) : Plain (flagText flag) := by
  cases flag <;> decide

theorem readFlag_flagText (flag : Bool) : readFlag (flagText flag) = flag := by
  cases flag <;> decide +kernel

/-- The columns of a table of nodes, with their texts in quotes. -/
def nodeColumns : List (Column Node) :=
  [{ title := "Id:ID", name := "Id", field := (toString ·.id) },
   { title := "Type", name := "Type", field := (quoted ·.type.name) },
   { title := "Kind", name := "Kind", field := (quoted ·.kind) },
   { title := "Code", name := "Code", field := (quoted ·.code) },
   { title := "Range", name := "Range", field := (quoted ·.range) },
   { title := "Location", name := "Location", field := (quoted ·.location) },
   { title := "Value", name := "Value", field := (quoted ·.value) },
   { title := "Raw", name := "Raw", field := (quoted ·.raw) },
   { title := "Async", name := "Async", field := (flagText ·.isAsync) },
   { title := "Label:LABEL", name := "Label", field := (quoted ·.label) },
   { title := "SemanticType", name := "SemanticType", field := (quoted ·.semanticType) },
   { title := "Computed", name := "Computed", field := (flagText ·.computed) }]

/-- The columns of a table of edges, with their texts in quotes. -/
def edgeColumns : List (Column Edge) :=
  [{ title := ":START_ID", name := ":START_ID", field := (toString ·.source) },
   { title := ":END_ID", name := ":END_ID", field := (toString ·.target) },
   { title := ":TYPE", name := ":TYPE", field := (quoted ·.relation.name) },
   { title := "RelationType", name := "RelationType", field := (quoted ·.relationType) },
   { title := "Arguments", name := "Arguments", field := (quoted ·.arguments) }]

/-- A node that a table can hold: its id is a word, its kind is found by its name, it has a label,
and its texts fit into a row. -/
structure PortableNode (node : Node) : Prop where
  id : node.id < wordBound
  type : NodeType.ofName node.type.name = node.type
  label : node.label ≠ ""
  texts : ∀ text ∈ [node.type.name, node.kind, node.code, node.range, node.location, node.value,
    node.raw, node.label, node.semanticType], Fits text

/-- An edge that a table can hold. -/
structure PortableEdge (edge : Edge) : Prop where
  source : edge.source < wordBound
  target : edge.target < wordBound
  relation : Relation.ofName edge.relation.name = edge.relation
  texts : ∀ text ∈ [edge.relation.name, edge.relationType, edge.arguments], Fits text

theorem PortableNode.inRow {node : Node} (h : PortableNode node) :
    ∀ column ∈ nodeColumns, InRow (column.field node) := by
  have htexts := h.texts
  simp only [List.forall_mem_cons, List.not_mem_nil, false_imp_iff, implies_true, and_true] at htexts
  obtain ⟨htype, hkind, hcode, hrange, hlocation, hvalue, hraw, hlabel, hsemantic⟩ := htexts
  simp only [nodeColumns, List.forall_mem_cons, List.not_mem_nil, false_imp_iff, implies_true,
    and_true]
  exact ⟨(plain_toString _).inRow, htype.inRow, hkind.inRow, hcode.inRow, hrange.inRow,
    hlocation.inRow, hvalue.inRow, hraw.inRow, (plain_flagText _).inRow, hlabel.inRow,
    hsemantic.inRow, (plain_flagText _).inRow⟩

theorem PortableEdge.inRow {edge : Edge} (h : PortableEdge edge) :
    ∀ column ∈ edgeColumns, InRow (column.field edge) := by
  have htexts := h.texts
  simp only [List.forall_mem_cons, List.not_mem_nil, false_imp_iff, implies_true, and_true] at htexts
  obtain ⟨htype, hrelation, harguments⟩ := htexts
  simp only [edgeColumns, List.forall_mem_cons, List.not_mem_nil, false_imp_iff, implies_true,
    and_true]
  exact ⟨(plain_toString _).inRow, (plain_toString _).inRow, htype.inRow, hrelation.inRow,
    harguments.inRow⟩

/-- What is found under the name of each column, in any order of them. -/
theorem get_of_perm {columns all : List (Column α)} (hp : columns.Perm all)
    (hn : (all.map (·.name)).Nodup) (entry : α) :
    ∀ column ∈ all, Header.get ⟨columns.map (·.name)⟩
      (columns.map fun column => unquoted (column.field entry)) column.name =
        unquoted (column.field entry) :=
  fun _ hm => get_of_mem ((hp.map _).nodup_iff.mpr hn) (hp.mem_iff.mpr hm) _

theorem PortableNode.readNode {node : Node} (h : PortableNode node) {columns : List (Column Node)}
    (hp : columns.Perm nodeColumns) :
    readNode ⟨columns.map (·.name)⟩ 0 (columns.map fun column => unquoted (column.field node)) =
      .ok node := by
  have hget := get_of_perm hp (by decide) node
  generalize (⟨columns.map (·.name)⟩ : Header) = header at hget ⊢
  generalize (columns.map fun column => unquoted (column.field node)) = fields at hget ⊢
  simp only [nodeColumns, List.forall_mem_cons, List.not_mem_nil, false_imp_iff, implies_true,
    and_true, unquoted_quoted, unquoted_of_plain (plain_toString _),
    unquoted_of_plain (plain_flagText _)] at hget
  obtain ⟨hid, htype, hkind, hcode, hrange, hlocation, hvalue, hraw, hasync, hlabel, hsemantic,
    hcomputed⟩ := hget
  have hlabelled : node.label.isEmpty = false := by simpa using h.label
  simp only [Table.readNode, hid, htype, hkind, hcode, hrange, hlocation, hvalue, hraw, hasync, hlabel,
    hsemantic, hcomputed, readId_eq_ok.mpr (NodeId.read_toString h.id), h.type, readFlag_flagText,
    hlabelled]
  rfl

theorem PortableEdge.readEdge {edge : Edge} (h : PortableEdge edge) {columns : List (Column Edge)}
    (hp : columns.Perm edgeColumns) :
    readEdge ⟨columns.map (·.name)⟩ 0 (columns.map fun column => unquoted (column.field edge)) =
      .ok edge := by
  have hget := get_of_perm hp (by decide) edge
  have hmarked : ∀ name, (":" ++ name) ∈ edgeColumns.map (·.name) →
      Header.marked ⟨columns.map (·.name)⟩ name = ":" ++ name := by
    intro name hm
    rw [Header.marked, if_pos]
    simpa using (hp.map (·.name)).mem_iff.mpr hm
  have hstart := (hmarked "START_ID" (by decide)).trans (by decide : _ = ":START_ID")
  have hend := (hmarked "END_ID" (by decide)).trans (by decide : _ = ":END_ID")
  have htype := (hmarked "TYPE" (by decide)).trans (by decide : _ = ":TYPE")
  generalize (⟨columns.map (·.name)⟩ : Header) = header at *
  generalize (columns.map fun column => unquoted (column.field edge)) = fields at hget ⊢
  simp only [edgeColumns, List.forall_mem_cons, List.not_mem_nil, false_imp_iff, implies_true,
    and_true, unquoted_quoted, unquoted_of_plain (plain_toString _)] at hget
  obtain ⟨hsource, htarget, hrelation, hrelationType, harguments⟩ := hget
  simp only [Table.readEdge, hstart, hend, htype, hsource, htarget, hrelation, hrelationType, harguments,
    readId_eq_ok.mpr (NodeId.read_toString h.source),
    readId_eq_ok.mpr (NodeId.read_toString h.target), h.relation]
  rfl

/-- **A table is read back whatever the order of its columns.** Texts in quotes may hold quotes and
carriage returns; only the delimiter and the line feed are kept out. The last line may have an end
or not. -/
theorem read_tableText {ending : String} (he : ending = "" ∨ ending = "\n") :
    (∀ (columns : List (Column Node)) (nodes : List Node), columns.Perm nodeColumns →
      (∀ node ∈ nodes, PortableNode node) →
        readNodes (tableText columns nodes ++ ending) = .ok nodes) ∧
    ∀ (columns : List (Column Edge)) (edges : List Edge), columns.Perm edgeColumns →
      (∀ edge ∈ edges, PortableEdge edge) →
        readEdges (tableText columns edges ++ ending) = .ok edges := by
  constructor
  · intro columns nodes hp hnodes
    refine readRows_tableText unnumbered_readNode (hp.length_eq ▸ by decide) ?_ ?_ he
    · exact fun node hm column hc => (hnodes node hm).inRow column (hp.mem_iff.mp hc)
    · exact fun node hm => (hnodes node hm).readNode hp
  · intro columns edges hp hedges
    refine readRows_tableText unnumbered_readEdge (hp.length_eq ▸ by decide) ?_ ?_ he
    · exact fun edge hm column hc => (hedges edge hm).inRow column (hp.mem_iff.mp hc)
    · exact fun edge hm => (hedges edge hm).readEdge hp

/-- A node with quotes and a carriage return in its texts, of a kind outside the vocabulary. -/
def awkwardNode : Node :=
  { id := 7, type := .other "Überklasse", code := "\"say \"\"hi\"\"\r", raw := "\"", isAsync := true,
    label := " " }

/-- An edge whose arguments hold quotes. -/
def awkwardEdge : Edge :=
  { source := 7, target := 18446744073709551615, relation := .erddg "ERDDG_x",
    arguments := "\x7b\"arg\":0\x7d\r" }

/-- Both are read back from tables whose columns stand in reverse order. -/
theorem read_tableText_awkward :
    tableText nodeColumns.reverse [awkwardNode] =
      "Computed¿SemanticType¿Label:LABEL¿Async¿Raw¿Value¿Location¿Range¿Code¿Kind¿Type¿Id:ID\n" ++
      "false¿\"\"¿\" \"¿true¿\"\"\"\"¿\"\"¿\"\"¿\"\"¿" ++
      "\"\"\"say \"\"\"\"hi\"\"\"\"\r\"¿\"\"¿\"Überklasse\"¿7" ∧
    readNodes (tableText nodeColumns.reverse [awkwardNode] ++ "") = .ok [awkwardNode] ∧
    readEdges (tableText edgeColumns.reverse [awkwardEdge] ++ "\n") = .ok [awkwardEdge] := by
  have hnode : PortableNode awkwardNode := ⟨by decide, by decide +kernel, by decide, by decide +kernel⟩
  have hedge : PortableEdge awkwardEdge :=
    ⟨by decide, by decide, by decide +kernel, by decide +kernel⟩
  refine ⟨by decide +kernel, ?_, ?_⟩
  · exact (read_tableText (.inl rfl)).1 _ _ (List.reverse_perm _) (by simpa using hnode)
  · exact (read_tableText (.inr rfl)).2 _ _ (List.reverse_perm _) (by simpa using hedge)

end Table

end RequestFlow

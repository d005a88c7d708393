/-
Edges that are added to a side table are read back after the edges that were in
it, exactly when its text is ready for a new line: a table that is there gets no
header, and its last line no end.
-/
import RequestFlow.Proofs.Footprint
import RequestFlow.Proofs.Webpage.Graph

namespace RequestFlow

namespace Chars

variable {c : Char} {s rest : List Char}

theorem afterLast?_singleton (c d : Char) (s : List Char) :
    afterLast? [c] (d :: s) =
      match afterLast? [c] s with
      | some rest => some rest
      | none => if c = d then some s else none := rfl

theorem afterLast?_eq_none : afterLast? [c] s = none ↔ c ∉ s := by
  induction s with
  | nil => simp [afterLast?, after?]
  | cons d s ih =>
    rw [afterLast?_singleton, List.mem_cons, not_or]
    cases h : afterLast? [c] s with
    | some rest =>
      rw [h] at ih
      have hm : c ∈ s := by simpa using ih
      simp [hm]
    | none =>
      have hm : c ∉ s := ih.mp h
      simp [hm]

/-- What follows the last `c`. -/
theorem exists_of_afterLast? (h : afterLast? [c] s = some rest) :
    c ∉ rest ∧ ∃ head, s = head ++ c :: rest := by
  induction s with
  | nil => cases h
  | cons d s ih =>
    rw [afterLast?_singleton] at h
    cases hs : afterLast? [c] s with
    | some later =>
      rw [hs] at h ih
      obtain ⟨hm, head, rfl⟩ := ih h
      exact ⟨hm, d :: head, rfl⟩
    | none =>
      rw [hs] at h
      dsimp only at h
      split at h
      · next hd =>
        cases h
        exact ⟨afterLast?_eq_none.mp hs, [], by rw [hd]; rfl⟩
      · cases h

theorem lines_of_not_mem (h : '\n' ∉ s) : lines s = if s.isEmpty then [] else [s] := by
  rw [lines, fields_of_not_mem h]
  rfl

theorem dropTailWhile_append {p : Char → Bool} (hne : rest ≠ []) (h : ∀ c ∈ rest, p c = false) :
    dropTailWhile p (s ++ rest) = s ++ rest := by
  obtain ⟨last, others, hlast⟩ := List.exists_cons_of_ne_nil (List.reverse_ne_nil_iff.mpr hne)
  have hp : p last = false := h last (List.mem_reverse.mp (hlast ▸ List.mem_cons_self))
  rw [dropTailWhile, List.reverse_append, hlast, List.cons_append,
    List.dropWhile_cons_of_neg (by simp [hp]), ← List.cons_append, ← hlast, ← List.reverse_append,
    List.reverse_reverse]

theorem trim_append_of_blank {blanks : List Char} (hb : blanks.all isBlank = true)
    (h : ∀ c ∈ s, isBlank c = false) : trim (blanks ++ s) = s := by
  rw [trim, trimStart, List.dropWhile_append_of_pos (List.all_eq_true.mp hb), ← trimStart]
  exact trim_of_forall h

end Chars

/-- An id is read with blanks before it. -/
theorem NodeId.read_after_blank {blanks : List Char} (hb : blanks.all isBlank = true) {id : NodeId}
    (h : id < wordBound) : read (String.ofList (blanks ++ (toString id).toList)) = .ok id := by
  have hblank : ∀ c ∈ Nat.toDigits 10 id, isBlank c = false := fun c hc =>
    Numeral.isBlank_of_isDigit (Numeral.isDigit_of_mem_toDigits c hc)
  rw [read, String.toList_ofList, Nat.toString_eq_ofList_toDigits, String.toList_ofList,
    Chars.trim_append_of_blank hb hblank, Numeral.read_toDigits_of_lt h]

namespace Table

/-- A line can be added at the end of a text: nothing but blanks follows its last line feed. -/
def takesLines (text : String) : Bool :=
  (Chars.afterLast? ['\n'] text.toList).any (·.all isBlank)

variable {edge : Edge} {text : String} {edges more : List Edge}

theorem unquote_after_blank {blanks : List Char} (hb : blanks.all isBlank = true) {s : String}
    (hs : Plain s) (hne : s.toList ≠ []) : unquote (blanks ++ s.toList) = blanks ++ s.toList := by
  have hkeep : Chars.dropTailWhile (fun c => c == '\r' || c == '\n') (blanks ++ s.toList) =
      blanks ++ s.toList :=
    Chars.dropTailWhile_append hne fun c hc => by simp [(hs c hc).2.1, (hs c hc).2.2.1]
  rw [unquote, hkeep]
  split
  · next rest hq =>
    have hm : '"' ∈ blanks ++ s.toList := by rw [hq]; exact List.mem_cons_self
    rcases List.mem_append.mp hm with hm | hm
    · exact absurd (List.all_eq_true.mp hb _ hm) (by decide)
    · exact absurd rfl (hs _ hm).2.2.2
  · rfl

/-- Blanks before the line of an edge go to its first field. -/
theorem Writable.splitRow_after_blank (h : Writable edge) {blanks : List Char}
    (hb : blanks.all isBlank = true) :
    splitRow (blanks ++ (edgeLine edge).toList) =
      String.ofList (blanks ++ (toString edge.source).toList) :: (edgeFields edge).tail := by
  have hline : blanks ++ (edgeLine edge).toList = List.intercalate [delimiter]
      ((blanks ++ (toString edge.source).toList) :: (edgeFields edge).tail.map String.toList) := by
    simp [edgeLine_toList, edgeFields, List.intercalate_cons_cons]
  have hblank : delimiter ∉ blanks := fun hm =>
    absurd (List.all_eq_true.mp hb _ hm) (by decide)
  have htail : ∀ field ∈ (edgeFields edge).tail, Plain field :=
    fun field hf => h.plain field (List.mem_of_mem_tail hf)
  have hsource : (toString edge.source).toList ≠ [] := by
    rw [Nat.toString_eq_ofList_toDigits, String.toList_ofList]
    exact Nat.toDigits_ne_nil
  rw [splitRow, hline, Chars.fields_intercalate (by simp), List.map_cons, List.map_map,
    unquote_after_blank hb (plain_toString edge.source) hsource]
  · refine congrArg (List.cons _) ((List.map_congr_left fun field hf => ?_).trans (List.map_id _))
    rw [Function.comp_apply, unquote_of_plain (htail field hf), String.ofList_toList, id]
  · rw [List.forall_mem_cons, List.forall_mem_map]
    refine ⟨fun hm => ?_, fun field hf hm => (htail field hf _ hm).1 rfl⟩
    rcases List.mem_append.mp hm with hm | hm
    · exact hblank hm
    · exact (plain_toString edge.source _ hm).1 rfl

/-- The line of an edge is read with blanks before it. -/
theorem Writable.readEdge_after_blank (h : Writable edge) {blanks : List Char}
    (hb : blanks.all isBlank = true) (row : Nat) :
    readEdge (.ofLine edgeHeader.toList) row (splitRow (blanks ++ (edgeLine edge).toList)) =
      .ok edge := by
  rw [h.splitRow_after_blank hb]
  exact h.readEdge_source (NodeId.read_after_blank hb h.source) row

/-- The first line that is added goes on the last line of the text. -/
theorem lines_edgeLines_after {last : List Char} (hn : '\n' ∉ last)
    (hw : ∀ other ∈ edge :: more, Writable other) :
    Chars.lines (last ++ (edgeLines (edge :: more)).toList) =
      (last ++ (edgeLine edge).toList) :: more.map fun edge => (edgeLine edge).toList := by
  obtain ⟨hedge, hmore⟩ := List.forall_mem_cons.mp hw
  obtain ⟨hfeed, hreturn⟩ := hedge.not_mem_edgeLine
  have htext : last ++ (edgeLines (edge :: more)).toList =
      last ++ (edgeLine edge).toList ++ '\n' :: (edgeLines more).toList := by
    simp [edgeLines, String.join_cons]
  have hline : Chars.dropReturn (last ++ (edgeLine edge).toList) = last ++ (edgeLine edge).toList := by
    refine Chars.dropReturn_of_getLast? fun hlast => hreturn ?_
    have hne : (edgeLine edge).toList ≠ [] := List.ne_nil_of_mem (mem_edgeLine.mpr (.inl rfl))
    rw [List.getLast?_append_of_ne_nil _ hne] at hlast
    exact List.mem_of_getLast? hlast
  rw [htext, Chars.lines_append_cons, Chars.fields_of_not_mem (by simp [hn, hfeed]),
    lines_edgeLines hmore, List.map_singleton, hline, List.singleton_append]

theorem rows_edgeLine_after (last : List Char) (edge : Edge) :
    rows [last ++ (edgeLine edge).toList] = [splitRow (last ++ (edgeLine edge).toList)] := by
  refine rows_of_not_blank fun line hline => ?_
  rw [List.mem_singleton.mp hline, List.all_append, edgeLine_not_blank, Bool.and_false]

/-- A text of one line is a header at most. -/
theorem eq_nil_of_readEdges (hn : '\n' ∉ text.toList) (hread : readEdges text = .ok edges) :
    edges = [] := by
  have hlines := Chars.lines_of_not_mem hn
  split at hlines
  · rw [readEdges, readRows_of_lines_nil hlines] at hread
    exact (Except.ok.inj hread).symm
  · rw [readEdges, readRows_eq_ok unnumbered_readEdge hlines] at hread
    exact List.forall₂_nil_left_iff.mp hread

/-- In a text of one line the first edge is lost to the header. -/
theorem readEdges_append_of_not_mem (hn : '\n' ∉ text.toList) (hread : readEdges text = .ok edges)
    (hw : ∀ other ∈ edge :: more, Writable other) :
    readEdges (text ++ edgeLines (edge :: more)) ≠ .ok (edges ++ edge :: more) := by
  obtain ⟨-, hmore⟩ := List.forall_mem_cons.mp hw
  have hlines : Chars.lines (text ++ edgeLines (edge :: more)).toList =
      (text.toList ++ (edgeLine edge).toList) :: more.map fun edge => (edgeLine edge).toList := by
    rw [String.toList_append]
    exact lines_edgeLines_after hn hw
  intro h
  rw [readEdges, readRows_eq_ok unnumbered_readEdge hlines, rows_edgeLines hmore,
    eq_nil_of_readEdges hn hread] at h
  simpa using h.length_eq

/-- After a line feed the first edge is read if blanks are all that stands before it. Otherwise one
line holds what were a row and an edge. -/
theorem readEdges_append_of_mem {head last : List Char} (htext : text.toList = head ++ '\n' :: last)
    (hn : '\n' ∉ last) (hread : readEdges text = .ok edges)
    (hheader : ∀ line ∈ (Chars.lines text.toList).head?, line = edgeHeader.toList)
    (hw : ∀ other ∈ edge :: more, Writable other) :
    readEdges (text ++ edgeLines (edge :: more)) = .ok (edges ++ edge :: more) ↔
      last.all isBlank = true := by
  obtain ⟨hedge, hmore⟩ := List.forall_mem_cons.mp hw
  obtain ⟨first, others, hfirst⟩ := List.exists_cons_of_ne_nil
    (mt List.map_eq_nil_iff.mp (Chars.fields_ne_nil '\n' head) :
      (Chars.fields '\n' head).map Chars.dropReturn ≠ [])
  have hbefore : Chars.lines text.toList =
      first :: (others ++ if last.isEmpty then [] else [last]) := by
    rw [htext, Chars.lines_append_cons, hfirst, List.cons_append, Chars.lines_of_not_mem hn]
  have hafter : Chars.lines (text ++ edgeLines (edge :: more)).toList = first :: (others ++
      ([last ++ (edgeLine edge).toList] ++ more.map fun edge => (edgeLine edge).toList)) := by
    rw [String.toList_append, htext, List.append_assoc, List.cons_append, Chars.lines_append_cons,
      hfirst, lines_edgeLines_after hn hw]
    rfl
  obtain rfl : first = edgeHeader.toList := hheader first (by rw [hbefore]; rfl)
  rw [readEdges, readRows_eq_ok unnumbered_readEdge hbefore, rows_append] at hread
  rw [readEdges, readRows_eq_ok unnumbered_readEdge hafter, rows_append, rows_append,
    rows_edgeLine_after, rows_edgeLines hmore]
  constructor
  · intro h
    by_contra hrow
    have hnonempty : ¬last.isEmpty = true := by
      intro hempty
      rw [List.isEmpty_iff.mp hempty] at hrow
      exact hrow rfl
    have hlast : rows [last] = [splitRow last] :=
      rows_of_not_blank fun line hline => by simpa [List.mem_singleton.mp hline] using hrow
    rw [if_neg hnonempty, hlast] at hread
    have hold := hread.length_eq
    have hnew := h.length_eq
    simp only [List.length_append, List.length_cons, List.length_nil, List.length_map] at hold hnew
    omega
  · intro hblank
    have hnone : rows (if last.isEmpty then [] else [last]) = [] := by
      split
      · rfl
      · exact rows_of_blank hblank
    rw [hnone, List.append_nil] at hread
    exact List.rel_append hread
      (.cons (hedge.readEdge_after_blank hblank 0) (forall₂_edgeFields hmore))

/-- **Edges added to a table of edges** are read after those that were in it, if and only if its
text takes lines. -/
theorem readEdges_append (hread : readEdges text = .ok edges)
    (hheader : ∀ line ∈ (Chars.lines text.toList).head?, line = edgeHeader.toList)
    (hne : more ≠ []) (hw : ∀ edge ∈ more, Writable edge) :
    readEdges (text ++ edgeLines more) = .ok (edges ++ more) ↔ takesLines text = true := by
  obtain ⟨edge, more, rfl⟩ := List.exists_cons_of_ne_nil hne
  rw [takesLines]
  cases hlast : Chars.afterLast? ['\n'] text.toList with
  | none =>
    have hn := Chars.afterLast?_eq_none.mp hlast
    exact iff_of_false (readEdges_append_of_not_mem hn hread hw) (by simp)
  | some last =>
    obtain ⟨hn, head, htext⟩ := Chars.exists_of_afterLast? hlast
    rw [Option.any_some]
    exact readEdges_append_of_mem htext hn hread hheader hw

theorem edgeLines_append (edges more : List Edge) :
    edgeLines (edges ++ more) = edgeLines edges ++ edgeLines more := by
  rw [edgeLines, List.map_append, String.join_append, edgeLines, edgeLines]

end Table

instance (edge : Edge) : Decidable edge.StoresOwner :=
  decidable_of_iff (edge.relation = .pointsTo ∧
      (edge.relationType = "top" ∧ (edge.arguments = "" ∨ edge.arguments = "pointsTo=window") ∨
        edge.relationType = "owner" ∧
          (edge.arguments = "" ∨ edge.arguments = "pointsTo=eventSelector")))
    ⟨fun ⟨hrelation, hmarks⟩ => ⟨hrelation, hmarks⟩, fun h => ⟨h.relation, h.marks⟩⟩

/-- An edge that stores an owner can be written to a table, if its ids are words. -/
theorem Edge.StoresOwner.writable {edge : Edge} (h : edge.StoresOwner)
    (hsource : edge.source < wordBound) (htarget : edge.target < wordBound) :
    Table.Writable edge := by
  have hplain : Table.Plain edge.relationType ∧ Table.Plain edge.arguments := by
    rcases h.marks with ⟨htype, hargs | hargs⟩ | ⟨htype, hargs | hargs⟩ <;> rw [htype, hargs] <;> decide
  exact {
    source := hsource
    target := htarget
    relation := by rw [h.relation]; decide
    name := by rw [h.relation]; decide
    relationType := hplain.1
    arguments := hplain.2 }

namespace Store

variable {disk disk' : Disk} {folder path : Path} {text : String} {edges : List Edge}

/-- The side table takes lines, if there is one. -/
def Ready (disk : Disk) (folder : Path) : Prop :=
  ∀ text, disk.read (Path.under folder ownersFile) = .ok text → Table.takesLines text = true

theorem read_appendOwners (hr : disk.read (Path.under folder ownersFile) = .ok text)
    (h : disk.run (appendOwners folder edges) = (.ok path, disk')) :
    disk'.read (Path.under folder ownersFile) = .ok (text ++ Table.edgeLines edges) := by
  have hmade := append_of_run h
  rw [Disk.occupied_of_read hr] at hmade
  have hread := Disk.read_append hr hmade
  rwa [Table.appendix, Bool.not_true, if_neg (by decide), String.empty_append] at hread

/-- Appending again and again comes to appending once. -/
theorem read_mapM_appendOwners {batches : List (List Edge)} {paths : List Path}
    (hr : disk.read (Path.under folder ownersFile) = .ok text)
    (h : disk.run (batches.mapM (appendOwners folder)) = (.ok paths, disk')) :
    disk'.read (Path.under folder ownersFile) = .ok (text ++ Table.edgeLines batches.flatten) := by
  induction batches generalizing disk text paths with
  | nil =>
    cases h
    simpa [Table.edgeLines] using hr
  | cons edges batches ih =>
    rw [List.mapM_cons, Disk.run_bind] at h
    split at h
    · next first middle hfirst =>
      rw [Disk.run_bind] at h
      split at h
      · next others last hrest =>
        cases h
        rw [List.flatten_cons, Table.edgeLines_append, ← String.append_assoc]
        exact ih (read_appendOwners hr hfirst) hrest
      · cases h
    · cases h

theorem read_mapM_appendOwners_new {batches : List (List Edge)} {paths : List Path}
    (hnew : disk.occupied (Path.under folder ownersFile) = false)
    (h : disk.run ((edges :: batches).mapM (appendOwners folder)) = (.ok paths, disk')) :
    disk'.read (Path.under folder ownersFile) =
      .ok (Table.appendix true (edges :: batches).flatten) := by
  obtain ⟨hfolder, hfile⟩ := Bool.or_eq_false_iff.mp hnew
  rw [List.mapM_cons, Disk.run_bind] at h
  split at h
  · next first middle hfirst =>
    have hmade := append_of_run hfirst
    rw [hnew, Bool.not_false] at hmade
    rw [Disk.run_bind] at h
    split at h
    · next others last hrest =>
      cases h
      rw [read_mapM_appendOwners (Disk.append_new hfolder hfile hmade).1 hrest]
      simp [Table.appendix, Table.edgeLines_append, String.append_assoc]
    · cases h
  · cases h

theorem sideTable_eq_ok (hr : disk.read (Path.under folder ownersFile) = .ok text) :
    sideTable disk folder = .ok edges ↔ Table.readEdges text = .ok edges := by
  rw [sideTable, if_pos (Disk.occupied_of_read hr), table_eq_ok, hr]
  constructor
  · rintro ⟨_, ht, h⟩
    exact Except.ok.inj ht ▸ h
  · exact fun h => ⟨text, rfl, h⟩

theorem ready_iff (hr : disk.read (Path.under folder ownersFile) = .ok text) :
    Ready disk folder ↔ Table.takesLines text = true := by
  rw [Ready, hr]
  exact ⟨fun h => h text rfl, fun h _ ht => Except.ok.inj ht ▸ h⟩

theorem ready_of_not_occupied (h : disk.occupied (Path.under folder ownersFile) = false) :
    Ready disk folder := by
  intro text hr
  rw [Disk.occupied_of_read hr] at h
  cases h

/-- **Owners are added without loss**, in however many batches, exactly when there are none, or no
side table, or one that takes lines. -/
theorem appendOwners_lossless_iff {batches : List (List Edge)} {paths : List Path}
    (hside : sideTable disk folder = .ok edges)
    (hheader : ∀ text, disk.read (Path.under folder ownersFile) = .ok text →
      ∀ line ∈ (Chars.lines text.toList).head?, line = Table.edgeHeader.toList)
    (howners : ∀ edge ∈ batches.flatten,
      edge.StoresOwner ∧ edge.source < wordBound ∧ edge.target < wordBound)
    (happend : disk.run (batches.mapM (appendOwners folder)) = (.ok paths, disk')) :
    sideTable disk' folder = .ok (edges ++ batches.flatten) ↔
      batches.flatten = [] ∨ Ready disk folder := by
  have hw : ∀ edge ∈ batches.flatten, Table.Writable edge := fun edge hm =>
    (howners edge hm).1.writable (howners edge hm).2.1 (howners edge hm).2.2
  cases hthere : disk.occupied (Path.under folder ownersFile) with
  | true =>
    obtain ⟨text, hread, hedges⟩ : ∃ text, disk.read (Path.under folder ownersFile) = .ok text ∧
        Table.readEdges text = .ok edges := by
      rw [sideTable, if_pos hthere] at hside
      exact table_eq_ok.mp hside
    have hread' := read_mapM_appendOwners hread happend
    rw [sideTable_eq_ok hread', ready_iff hread]
    by_cases hnone : batches.flatten = []
    · simpa [hnone, Table.edgeLines] using hedges
    · rw [Table.readEdges_append hedges (hheader text hread) hnone hw, or_iff_right hnone]
  | false =>
    obtain rfl : edges = [] := by
      rw [sideTable, hthere] at hside
      exact (Except.ok.inj hside).symm
    refine iff_of_true ?_ (.inr (ready_of_not_occupied hthere))
    cases batches with
    | nil =>
      cases happend
      exact hside
    | cons first batches =>
      rw [sideTable_eq_ok (read_mapM_appendOwners_new hthere happend), List.nil_append]
      exact Table.readEdges_appendix hw

/-! ## A disk with nothing but a side table -/

def sideDisk (text : String) : Disk where
  entries := [([ownersFile], .ofText text)]

theorem read_sideDisk (text : String) :
    (sideDisk text).read (Path.under "/" ownersFile) = .ok text :=
  Disk.read_ofText rfl

theorem run_sideDisk (text : String) (edges : List Edge) :
    (sideDisk text).run (appendOwners "/" edges) =
      (.ok (Path.under "/" ownersFile), sideDisk (text ++ Table.edgeLines edges)) := by
  have hmade : ∀ more, (sideDisk text).append (Path.under "/" ownersFile) more =
      .ok (sideDisk (text ++ more)) := by
    intro more
    have hput : (sideDisk text).append (Path.under "/" ownersFile) more =
        .ok { entries := [([ownersFile], .file (text.toUTF8 ++ more.toUTF8))] } := rfl
    rw [hput, sideDisk, Entry.ofText]
    simp
  rw [run_appendOwners]
  dsimp only
  rw [Disk.occupied_of_read (read_sideDisk text), hmade]
  simp [Table.appendix]

/-- One row, and blanks after its line feed. -/
def ragged : String :=
  Table.appendix true [{ source := 7, target := 8, relation := .pointsTo, relationType := "top" }] ++
    " \t"

/-- What stores that an occurrence of `this` belongs to a node, as another one says, and that one
more occurrence is the window. -/
def ownerBatches : List (List Edge) :=
  [[{ source := 1, target := 2, relation := .pointsTo, relationType := "top" },
    { source := 1, target := 3, relation := .pointsTo, relationType := "owner" }],
   [],
   [{ source := 4, target := 5, relation := .pointsTo, relationType := "top"
      arguments := "pointsTo=window" }]]

theorem appendOwners_lossless_ragged :
    ∃ edges paths disk', sideTable (sideDisk ragged) "/" = .ok edges ∧ edges.length = 1 ∧
      (sideDisk ragged).run (ownerBatches.mapM (appendOwners "/")) = (.ok paths, disk') ∧
      Ready (sideDisk ragged) "/" ∧
      sideTable disk' "/" = .ok (edges ++ ownerBatches.flatten) := by
  have hside : sideTable (sideDisk ragged) "/" =
      .ok [{ source := 7, target := 8, relation := .pointsTo, relationType := "top" }] :=
    (sideTable_eq_ok (read_sideDisk _)).mpr (by decide +kernel)
  have hready : Ready (sideDisk ragged) "/" := (ready_iff (read_sideDisk _)).mpr (by decide +kernel)
  have hrun : ∃ paths disk',
      (sideDisk ragged).run (ownerBatches.mapM (appendOwners "/")) = (.ok paths, disk') := by
    simp only [ownerBatches, List.mapM_cons, List.mapM_nil, Disk.run_bind, run_sideDisk]
    exact ⟨_, _, rfl⟩
  obtain ⟨paths, disk', hrun⟩ := hrun
  refine ⟨_, paths, disk', hside, rfl, hrun, hready,
    (appendOwners_lossless_iff hside ?_ (by decide +kernel) hrun).mpr (.inr hready)⟩
  intro text hread
  rw [← Except.ok.inj ((read_sideDisk _).symm.trans hread)]
  decide +kernel

/-- **An empty side table swallows an edge**: the edge is read as the header. -/
theorem appendOwners_empty_loses :
    let disk := sideDisk ""
    let edge : Edge := { source := 1, target := 2, relation := .pointsTo, relationType := "top" }
    edge.StoresOwner ∧ sideTable disk "/" = .ok [] ∧
      ∃ path disk', disk.run (appendOwners "/" [edge]) = (.ok path, disk') ∧
        sideTable disk' "/" = .ok [] := by
  intro disk edge
  refine ⟨by decide, (sideTable_eq_ok (read_sideDisk _)).mpr rfl, _, _,
    run_sideDisk "" [edge], (sideTable_eq_ok (read_sideDisk _)).mpr ?_⟩
  decide +kernel

end Store

end RequestFlow

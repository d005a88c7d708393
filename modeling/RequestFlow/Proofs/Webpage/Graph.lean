/-
The graph of a webpage on a disk: what loading reads, what the side table
changes, and that edges written to a new side table are read back.
-/
import RequestFlow.Proofs.Files.Disk
import RequestFlow.Proofs.Graph.Table
import RequestFlow.Webpage.Graph

namespace RequestFlow

/-! ## Programs on a disk -/

namespace Disk

variable {ε α β : Type} {disk : Disk}

/-- Runs a program on a disk. -/
def run (disk : Disk) (program : ExceptT ε (StateM Disk) α) : Except ε α × Disk :=
  StateT.run (ExceptT.run program) disk

theorem run_bind (program : ExceptT ε (StateM Disk) α) (next : α → ExceptT ε (StateM Disk) β) :
    disk.run (program >>= next) = match disk.run program with
      | (.ok a, disk) => disk.run (next a)
      | (.error e, disk) => (.error e, disk) := by
  rw [run, RequestFlow.run_bind, run]
  rcases StateT.run program.run disk with ⟨_ | _, _⟩ <;> rfl

theorem run_lift (action : StateM Disk α) :
    disk.run (liftM action : ExceptT ε (StateM Disk) α) =
      (.ok (action.run disk).1, (action.run disk).2) := rfl

/-- Something is at a path. -/
def occupied (disk : Disk) (path : Path) : Bool := disk.isFolder path || disk.isFile path

theorem occupied_of_read {path : Path} {text : String} (h : disk.read path = .ok text) :
    disk.occupied path = true := by
  rw [occupied, isFile_of_read h, Bool.or_true]

theorem run_exists (path : Path) :
    disk.run (liftM (Files.exists path : StateM Disk Bool) : ExceptT ε (StateM Disk) Bool) =
      (.ok (disk.occupied path), disk) := by
  have hexists : (Files.exists path : StateM Disk Bool).run disk = (disk.occupied path, disk) := by
    change (if disk.isFolder path = true then pure true else Files.isFile path : StateM Disk Bool).run
      disk = _
    unfold occupied
    cases disk.isFolder path <;> rfl
  rw [run_lift, hexists]

theorem run_append (path : Path) (text : String) :
    disk.run (liftM (Files.append path text : StateM Disk _) :
        ExceptT ε (StateM Disk) (Except FileFault Unit)) =
      match disk.append path text with
      | .ok disk' => (.ok (.ok ()), disk')
      | .error fault => (.ok (.error fault), disk) := by
  have happly : (Files.append path text : StateM Disk _).run disk =
      match disk.append path text with
      | .ok disk' => (.ok (), disk')
      | .error fault => (.error fault, disk) := by
    change StateT.run (match disk.append path text with | .ok disk' => _ | .error fault => _) disk = _
    cases disk.append path text <;> rfl
  rw [run_lift, happly]
  cases disk.append path text <;> rfl

end Disk

/-! ## Tables on a disk -/

namespace Store

variable {disk disk' : Disk} {folder : Path} {store : Store}

/-- The rows of the table at a path. -/
def table {α : Type} (rows : String → Except RowFault (List α)) (disk : Disk) (path : Path) :
    Except LoadFault (List α) :=
  match disk.read path with
  | .error fault => .error (.unreadable path fault)
  | .ok text => (rows text).mapError (.malformed path)

theorem run_readTable {α : Type} (rows : String → Except RowFault (List α)) (path : Path) :
    disk.run (readTable rows path) = (table rows disk path, disk) := by
  unfold readTable table
  rw [Disk.run_bind, Disk.run_lift]
  change disk.run (match disk.read path with | .error fault => _ | .ok text => _) = _
  cases disk.read path with
  | error fault => rfl
  | ok text =>
    dsimp only
    cases rows text <;> rfl

/-- The rows of the side table, if there is one. -/
def sideTable (disk : Disk) (folder : Path) : Except LoadFault (List Edge) :=
  if disk.occupied (Path.under folder ownersFile) then
    table Table.readEdges disk (Path.under folder ownersFile)
  else .ok []

theorem run_load : disk.run (load folder) = (do
    let nodes ← table Table.readNodes disk (Path.under folder nodesFile)
    let edges ← table Table.readEdges disk (Path.under folder edgesFile)
    let owners ← sideTable disk folder
    .ok (.ofTables nodes (edges ++ owners)), disk) := by
  unfold load sideTable
  rw [Disk.run_bind, run_readTable]
  cases table Table.readNodes disk (Path.under folder nodesFile) with
  | error fault => rfl
  | ok nodes =>
    dsimp only
    rw [Disk.run_bind, run_readTable]
    cases table Table.readEdges disk (Path.under folder edgesFile) with
    | error fault => rfl
    | ok edges =>
      dsimp only
      rw [Disk.run_bind, Disk.run_exists]
      dsimp only
      cases disk.occupied (Path.under folder ownersFile) with
      | false => rfl
      | true =>
        rw [if_pos rfl, Disk.run_bind, run_readTable]
        cases table Table.readEdges disk (Path.under folder ownersFile) <;> rfl

theorem table_eq_ok {α : Type} {rows : String → Except RowFault (List α)} {path : Path}
    {found : List α} :
    table rows disk path = .ok found ↔ ∃ text, disk.read path = .ok text ∧ rows text = .ok found := by
  unfold table
  cases disk.read path with
  | error fault => simp
  | ok text => cases h : rows text <;> simp [Except.mapError, h]

/-- A graph that was read without a side table. -/
theorem load_eq_ok (hnew : disk.occupied (Path.under folder ownersFile) = false)
    (h : disk.run (load folder) = (.ok store, disk')) :
    ∃ nodes edges, table Table.readNodes disk (Path.under folder nodesFile) = .ok nodes ∧
      table Table.readEdges disk (Path.under folder edgesFile) = .ok edges ∧
      store = .ofTables nodes edges := by
  rw [run_load, sideTable, if_neg (by simp [hnew])] at h
  obtain ⟨nodes, hn, h⟩ := exists_of_bind (congrArg Prod.fst h)
  obtain ⟨edges, he, h⟩ := exists_of_bind h
  refine ⟨nodes, edges, hn, he, ?_⟩
  simpa [bind, Except.bind] using h.symm

/-- Two tables and no side table are read. -/
theorem run_load_tables (hnew : disk.occupied (Path.under folder ownersFile) = false)
    {nodes : List Node} {edges : List Edge}
    (hn : table Table.readNodes disk (Path.under folder nodesFile) = .ok nodes)
    (he : table Table.readEdges disk (Path.under folder edgesFile) = .ok edges) :
    disk.run (load folder) = (.ok (.ofTables nodes edges), disk) := by
  rw [run_load, hn, he, sideTable, hnew]
  simp [bind, Except.bind]

/-- On a graph that was read nothing has been written yet, and its ids are words. -/
theorem new_of_load (hnew : disk.occupied (Path.under folder ownersFile) = false)
    (h : disk.run (load folder) = (.ok store, disk')) :
    store.created = #[] ∧ ∀ id, store.hasNode id = true → id < wordBound := by
  obtain ⟨nodes, edges, hnodes, -, rfl⟩ := load_eq_ok hnew h
  obtain ⟨text, -, hread⟩ := table_eq_ok.mp hnodes
  refine ⟨(ofTables_eq nodes edges).2.2, fun id hid => ?_⟩
  obtain ⟨node, hm, rfl⟩ := mem_of_hasNode_ofTables hid
  exact Table.id_lt_of_readNodes hread node hm

theorem run_appendOwners (edges : List Edge) :
    disk.run (appendOwners folder edges) =
      let path := Path.under folder ownersFile
      match disk.append path (Table.appendix (!disk.occupied path) edges) with
      | .ok disk' => (.ok path, disk')
      | .error fault => (.error (.unreadable path fault), disk) := by
  unfold appendOwners
  extract_lets path
  rw [Disk.run_bind, Disk.run_exists]
  dsimp only
  rw [Disk.run_bind, Disk.run_append]
  cases disk.append path (Table.appendix (!disk.occupied path) edges) <;> rfl

theorem append_of_run {edges : List Edge} {path : Path}
    (h : disk.run (appendOwners folder edges) = (.ok path, disk')) :
    disk.append (Path.under folder ownersFile)
      (Table.appendix (!disk.occupied (Path.under folder ownersFile)) edges) = .ok disk' := by
  rw [run_appendOwners] at h
  dsimp only at h
  split at h
  · next made hmade =>
    cases h
    exact hmade
  · cases h

/-- **A graph is read back with the edges that were added to a new side table.** -/
theorem load_appendOwners {owners : List Edge} {path : Path}
    (hnew : disk.occupied (Path.under folder ownersFile) = false)
    (hload : disk.run (load folder) = (.ok store, disk))
    (happend : disk.run (appendOwners folder owners) = (.ok path, disk'))
    (hw : ∀ edge ∈ owners, Table.Writable edge)
    (he : ∀ edge ∈ owners, store.hasNode edge.source = true ∧ store.hasNode edge.target = true) :
    ∃ store', disk'.run (load folder) = (.ok store', disk') ∧ store'.nodes = store.nodes ∧
      store'.edges.toList = store.edges.toList ++ owners ∧ store'.created = #[] := by
  obtain ⟨nodes, edges, hnodes, hedges, rfl⟩ := load_eq_ok hnew hload
  have hmade := append_of_run happend
  rw [hnew, Bool.not_false] at hmade
  obtain ⟨hfolder, hfile⟩ := Bool.or_eq_false_iff.mp hnew
  obtain ⟨hread, hothers⟩ := Disk.append_new hfolder hfile hmade
  have hkeep : ∀ {α : Type} {rows : String → Except RowFault (List α)} {path : Path} {found : List α},
      table rows disk path = .ok found → table rows disk' path = .ok found := by
    intro α rows path found h
    obtain ⟨text, ht, hrows⟩ := table_eq_ok.mp h
    exact table_eq_ok.mpr ⟨text, hothers ht, hrows⟩
  have howners : table Table.readEdges disk' (Path.under folder ownersFile) = .ok owners :=
    table_eq_ok.mpr ⟨_, hread, Table.readEdges_appendix hw⟩
  have hthere := Disk.occupied_of_read hread
  refine ⟨.ofTables nodes (edges ++ owners), ?_, ofTables_append he⟩
  rw [run_load, hkeep hnodes, hkeep hedges, sideTable, if_pos hthere, howners]
  rfl

end Store

end RequestFlow

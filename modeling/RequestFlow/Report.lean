/-
The report of a webpage: one flow per sink, with the slices traced back from
each name in the sink's argument, and its text.
-/
import RequestFlow.Reach
import RequestFlow.Semantic.Type
import RequestFlow.Trace.Slice

namespace RequestFlow

/-- One line of a listing of slices. -/
structure SliceEntry where
  index : Nat
  location : String
  code : String
  deriving DecidableEq, Repr, Inhabited

/-- The slices of one name and what they read. -/
structure VariableSlices where
  types : TypeSet
  slices : List SliceEntry
  deriving DecidableEq, Repr, Inhabited

/-- Numbers slices from zero. -/
def VariableSlices.ofSlices (types : TypeSet) (slices : List Slice) : VariableSlices :=
  ⟨types, slices.mapIdx fun index slice => ⟨index, slice.location, slice.code⟩⟩

/-- The slices of each name, in the order of the names. -/
structure SliceTable where
  entries : List (String × VariableSlices)
  ordered : entries.Pairwise (·.1 < ·.1)
  deriving DecidableEq, Repr

instance : EmptyCollection SliceTable := ⟨⟨[], .nil⟩⟩

instance : Inhabited SliceTable := ⟨{}⟩

namespace SliceTable

/-- Puts an entry in its place; an entry of the same name gives way. -/
def place (name : String) (slices : VariableSlices) :
    List (String × VariableSlices) → List (String × VariableSlices)
  | [] => [(name, slices)]
  | entry :: rest =>
    if name = entry.1 then (name, slices) :: rest
    else if name < entry.1 then (name, slices) :: entry :: rest
    else entry :: place name slices rest

theorem fst_of_mem_place {name : String} {slices : VariableSlices} {e : String × VariableSlices}
    {entries : List (String × VariableSlices)} (h : e ∈ place name slices entries) :
    e.1 = name ∨ e ∈ entries := by
  induction entries with
  | nil => simp_all [place]
  | cons entry rest ih =>
    rw [place] at h
    split at h
    · rcases List.mem_cons.mp h with rfl | h
      · exact .inl rfl
      · exact .inr (List.mem_cons_of_mem _ h)
    · split at h
      · rcases List.mem_cons.mp h with rfl | h
        · exact .inl rfl
        · exact .inr h
      · rcases List.mem_cons.mp h with rfl | h
        · exact .inr List.mem_cons_self
        · exact (ih h).imp id (List.mem_cons_of_mem _)

theorem place_ordered {name : String} {slices : VariableSlices}
    {entries : List (String × VariableSlices)} (h : entries.Pairwise (·.1 < ·.1)) :
    (place name slices entries).Pairwise (·.1 < ·.1) := by
  induction entries with
  | nil => simp [place]
  | cons entry rest ih =>
    rw [List.pairwise_cons] at h
    rw [place]
    split
    · next heq => exact List.pairwise_cons.mpr ⟨fun e he => heq ▸ h.1 e he, h.2⟩
    · next hne =>
      split
      · next hlt =>
        refine List.pairwise_cons.mpr ⟨fun e he => ?_, List.pairwise_cons.mpr h⟩
        rcases List.mem_cons.mp he with rfl | he
        · exact hlt
        · exact String.lt_trans hlt (h.1 e he)
      · next hge =>
        refine List.pairwise_cons.mpr ⟨fun e he => ?_, ih h.2⟩
        rcases fst_of_mem_place he with he | he
        · rw [he]
          exact Decidable.byContradiction fun hn =>
            hne (String.le_antisymm (String.not_lt.mp hn) (String.not_lt.mp hge))
        · exact h.1 e he

def insert (table : SliceTable) (name : String) (slices : VariableSlices) : SliceTable :=
  ⟨place name slices table.entries, place_ordered table.ordered⟩

/-- A table of entries in any order; of those with one name the last counts. -/
def ofList (entries : List (String × VariableSlices)) : SliceTable :=
  entries.foldl (fun table (name, slices) => table.insert name slices) {}

end SliceTable

/-- A sink and all that was traced back from its argument. -/
structure Flow where
  webpage : String
  script : String
  types : TypeSet
  node : NodeId
  statement : NodeId
  location : String
  sinkType : String
  sinkCode : String
  slices : SliceTable
  reachability : Reachability
  /-- Something failed or was cut short, so there may be more. -/
  isPartial : Bool := false
  deriving DecidableEq, Repr, Inhabited

structure Report where
  url : String
  flows : List Flow := []
  deriving DecidableEq, Repr, Inhabited

namespace Report

def partialFlows (report : Report) : Nat := (report.flows.filter (·.isPartial)).length

/-! ## As text -/

/-- Blanks before a text up to a width. -/
def padLeft (width : Nat) (s : String) : String :=
  String.ofList (List.replicate (width - s.length) ' ') ++ s

/-- Blanks behind a text up to a width. -/
def padRight (width : Nat) (s : String) : String :=
  s ++ String.ofList (List.replicate (width - s.length) ' ')

def witnessLine (witness : Witness) : String :=
  "    <- " ++ witness.verdict ++ " (call " ++ toString witness.call ++ ", top "
    ++ toString witness.top ++ ")"

def witnessLines : Reachability → List String
  | .witnesses list => list.map witnessLine
  | _ => []

def sliceLine (entry : SliceEntry) : String :=
  "    " ++ padLeft 3 (toString entry.index) ++ " " ++ padRight 12 entry.location ++ " "
    ++ entry.code

def variableLines : String × VariableSlices → List String
  | (name, slices) =>
    ("  [" ++ name ++ "] " ++ slices.types.text) :: slices.slices.map sliceLine

def flowLines (flow : Flow) : List String :=
  ["",
   "[sink] " ++ flow.sinkType ++ " @ " ++ flow.location ++ " (node " ++ toString flow.node ++ ")",
   "  webpage: " ++ flow.webpage,
   "  script: " ++ flow.script,
   "  code: " ++ flow.sinkCode,
   "  cfg node: " ++ toString flow.statement,
   "  semantic types: " ++ flow.types.text,
   "  reachability: " ++ flow.reachability.label]
    ++ witnessLines flow.reachability
    ++ (if flow.isPartial then ["  partial: true"] else [])
    ++ flow.slices.entries.flatMap variableLines

def lines (report : Report) : List String :=
  ["[*] url: " ++ report.url, "[*] flows: " ++ toString report.flows.length]
    ++ report.flows.flatMap flowLines

def text (report : Report) : String := String.join (report.lines.map (· ++ "\n"))

end Report

end RequestFlow

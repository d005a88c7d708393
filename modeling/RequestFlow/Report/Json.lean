/-
Reports as JSON: what is written, and what is accepted back.
-/
import RequestFlow.Json.Magnitude
import RequestFlow.Json.Reader
import RequestFlow.Json.Writer
import RequestFlow.Report

namespace RequestFlow

namespace Json

mutual

/-- The value is at most so many brackets deep, has no garbled part, and every number in it is one
that a float can hold. -/
def isSound : (depth : Nat) → Json → Bool
  | _, garbled => false
  | _, integer value => (Magnitude.ofText (toString value.natAbs).toList).isFinite
  | _, decimal written => (Magnitude.ofText written.toList).isFinite
  | depth, list items => depth != 0 && allSound (depth - 1) items
  | depth, object fields => depth != 0 && fieldsSound (depth - 1) fields
  | _, _ => true

def allSound : (depth : Nat) → List Json → Bool
  | _, [] => true
  | depth, item :: rest => isSound depth item && allSound depth rest

def fieldSound : (depth : Nat) → String × Json → Bool
  | depth, (_, json) => isSound depth json

def fieldsSound : (depth : Nat) → List (String × Json) → Bool
  | _, [] => true
  | depth, field :: rest => fieldSound depth field && fieldsSound depth rest

end

end Json

namespace TypeSet

def toJson (set : TypeSet) : Json := .texts (set.types.map (·.name))

def ofJson? (json : Json) : Option TypeSet := do
  let types ← json.list? fun item => do SemanticType.named? (← item.variant?)
  some (ofList types)

end TypeSet

namespace Witness

def toJson (witness : Witness) : Json :=
  .object [("call_expr_id", .ofNat witness.call), ("top_expr_id", .ofNat witness.top),
    ("verdict", .text witness.verdict)]

def ofJson? (json : Json) : Option Witness := do
  match ← json.record? ["call_expr_id", "top_expr_id", "verdict"] with
  | [some call, some top, some verdict] =>
    some ⟨← call.word?, ← top.word?, ← verdict.text?⟩
  | _ => none

end Witness

namespace Reachability

def toJson : Reachability → Json
  | onPageLoad => .text "onPageLoad"
  | unreachable => .text "unreachable"
  | witnesses list => .list (list.map Witness.toJson)

/-- How deep the value may be. A report is at most 127 brackets deep, and three are around it. -/
def depthLimit : Nat := 124

/-- A verdict by its name, or witnesses; an empty list of witnesses is neither. All of the value has
to be sound, also what is not needed of it. -/
def ofJson? (json : Json) : Option Reachability :=
  if json.isSound depthLimit then match json.variant? with
    | some "onPageLoad" => some onPageLoad
    | some "unreachable" => some unreachable
    | _ => match json.list? Witness.ofJson? with
      | some (first :: rest) => some (witnesses (first :: rest))
      | _ => none
  else none

end Reachability

namespace SliceEntry

def toJson (entry : SliceEntry) : Json :=
  .object [("index", .ofNat entry.index), ("loc", .text entry.location), ("code", .text entry.code)]

def ofJson? (json : Json) : Option SliceEntry := do
  match ← json.record? ["index", "loc", "code"] with
  | [some index, some location, some code] =>
    some ⟨← index.word?, ← location.text?, ← code.text?⟩
  | _ => none

end SliceEntry

namespace VariableSlices

def toJson (slices : VariableSlices) : Json :=
  .object [("semantic_types", slices.types.toJson),
    ("slices", .list (slices.slices.map SliceEntry.toJson))]

def ofJson? (json : Json) : Option VariableSlices := do
  match ← json.record? ["semantic_types", "slices"] with
  | [some types, some slices] =>
    some ⟨← TypeSet.ofJson? types, ← slices.list? SliceEntry.ofJson?⟩
  | _ => none

end VariableSlices

namespace SliceTable

def toJson (table : SliceTable) : Json :=
  .object (table.entries.map fun (name, slices) => (name, slices.toJson))

/-- A name that is given twice has its last value. -/
def ofJson? : Json → Option SliceTable
  | .object fields => do
    let entries ← fields.mapM fun (name, json) => do some (name, ← VariableSlices.ofJson? json)
    some (ofList entries)
  | _ => none

end SliceTable

namespace Flow

def toJson (flow : Flow) : Json :=
  .object ([("webpage", .text flow.webpage), ("script", .text flow.script),
    ("semantic_types", flow.types.toJson), ("node_id", .ofNat flow.node),
    ("cfg_node_id", .ofNat flow.statement), ("loc", .text flow.location),
    ("sink_type", .text flow.sinkType), ("sink_code", .text flow.sinkCode),
    ("program_slices", flow.slices.toJson), ("reachability", flow.reachability.toJson)]
    ++ if flow.isPartial then [("partial", .flag true)] else [])

def keys : List String :=
  ["webpage", "script", "semantic_types", "node_id", "cfg_node_id", "loc", "sink_type",
   "sink_code", "program_slices", "reachability", "partial"]

/-- A flow that does not say so is not partial. -/
def ofJson? (json : Json) : Option Flow := do
  match ← json.record? keys with
  | [some webpage, some script, some types, some node, some statement, some location,
     some sinkType, some sinkCode, some slices, some reachability, isPartial] =>
    some
      { webpage := ← webpage.text?
        script := ← script.text?
        types := ← TypeSet.ofJson? types
        node := ← node.word?
        statement := ← statement.word?
        location := ← location.text?
        sinkType := ← sinkType.text?
        sinkCode := ← sinkCode.text?
        slices := ← SliceTable.ofJson? slices
        reachability := ← Reachability.ofJson? reachability
        isPartial := ← match isPartial with
          | some json => json.flag?
          | none => some false }
  | _ => none

end Flow

namespace Report

def toJson (report : Report) : Json :=
  .object [("url", .text report.url), ("flows", .list (report.flows.map Flow.toJson))]

def ofJson? (json : Json) : Option Report := do
  match ← json.record? ["url", "flows"] with
  | [some url, some flows] => some ⟨← url.text?, ← flows.list? Flow.ofJson?⟩
  | _ => none

/-- The report as it is stored. -/
def jsonText (report : Report) : String := report.toJson.pretty

/-- Reads a stored report. -/
def read (s : String) : Except Json.Fault Report := Json.readAs ofJson? s

end Report

end RequestFlow

/-
The summary of a site: what became of each webpage, as lines for people and as
JSON for programs.
-/
import RequestFlow.Text.Paint
import RequestFlow.Webpage.Outcome

namespace RequestFlow

structure Summary where
  site : String
  webpages : List Outcome := []
  /-- The webpages for which there was no time left. -/
  skipped : List String := []
  /-- Milliseconds. -/
  elapsed : Nat := 0
  deriving DecidableEq, Repr

namespace Summary

def version : String := "0.1.0"

def total (f : Outcome → Nat) (summary : Summary) : Nat :=
  summary.webpages.foldl (fun sum page => sum + f page) 0

def flows : Summary → Nat := total (·.flows)

def partialFlows : Summary → Nat := total (·.partialFlows)

def ownerEdges : Summary → Nat := total (·.ownerEdges)

def failed (summary : Summary) : Nat := (summary.webpages.filter (·.error.isSome)).length

def analysed (summary : Summary) : Nat := summary.webpages.length - summary.failed

/-! ## As JSON -/

def outcomeJson (outcome : Outcome) : Json :=
  .object ([("webpage", .text outcome.webpage), ("flows", .ofNat outcome.flows),
    ("partial", .ofNat outcome.partialFlows), ("points_to_edges", .ofNat outcome.ownerEdges)]
    ++ outcome.error.toList.map fun error => ("error", .text error))

def toJson (summary : Summary) : Json :=
  .object
    [("version", .text "1.0"),
     ("metadata", .object
       [("jaw_version", .text version),
        ("site", .text summary.site),
        ("elapsed_ms", .ofNat summary.elapsed)]),
     ("summary", .object
       [("total_webpages", .ofNat (summary.webpages.length + summary.skipped.length)),
        ("analysed", .ofNat summary.analysed),
        ("failed", .ofNat summary.failed),
        ("skipped", .ofNat summary.skipped.length),
        ("flows", .ofNat summary.flows),
        ("partial_flows", .ofNat summary.partialFlows),
        ("points_to_edges", .ofNat summary.ownerEdges)]),
     ("webpages", .list (summary.webpages.map outcomeJson)),
     ("skipped", .texts summary.skipped)]

/-! ## As text -/

/-- A count with the word for it. -/
def counted (count : Nat) (one many : String) : String := if count = 1 then one else many

def outcomeLine (color : Bool) (outcome : Outcome) : String :=
  match outcome.error with
  | some error => Paint.boldRed.on color "✗" ++ " " ++ outcome.webpage ++ ": " ++ error
  | none =>
    Paint.boldGreen.on color "✓" ++ " " ++ outcome.webpage ++ ": "
      ++ Paint.bold.on color (toString outcome.flows) ++ " " ++ counted outcome.flows "flow" "flows"
      ++ (if 0 < outcome.partialFlows then
          " (" ++ Paint.yellow.on color (toString outcome.partialFlows ++ " partial") ++ ")"
        else "")
      ++ (if 0 < outcome.ownerEdges then
          ", " ++ toString outcome.ownerEdges ++ " pointsTo "
            ++ counted outcome.ownerEdges "edge" "edges"
        else "")

def skippedLine (color : Bool) (webpage : String) : String :=
  Paint.boldYellow.on color "-" ++ " " ++ Paint.dimmed.on color webpage

/-- How many webpages were analysed, failed and were skipped. -/
def parts (color : Bool) (summary : Summary) : List String :=
  [toString summary.analysed ++ " "
    ++ counted summary.analysed "webpage analysed" "webpages analysed"]
    ++ (if 0 < summary.failed then
        [Paint.red.on color (toString summary.failed ++ " failed")] else [])
    ++ (if summary.skipped.isEmpty then []
      else [Paint.yellow.on color (toString summary.skipped.length ++ " skipped")])

def lastLine (color : Bool) (summary : Summary) : String :=
  Paint.cyan.on color summary.site ++ ": " ++ Paint.bold.on color (toString summary.flows) ++ " "
    ++ counted summary.flows "flow" "flows" ++ " (" ++ ", ".intercalate (summary.parts color)
    ++ ") in " ++ (Seconds.ofMillis summary.elapsed).oneDecimal ++ "s"

def text (color : Bool) (summary : Summary) : String :=
  String.join ((summary.webpages.map (outcomeLine color) ++ summary.skipped.map (skippedLine color)
    ++ ["", summary.lastLine color]).map (· ++ "\n"))

end Summary

end RequestFlow

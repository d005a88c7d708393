/-
One webpage from its folder to its report: loading, analysing, and writing the
report and the owners of `this` back.
-/
import RequestFlow.Report.Json
import RequestFlow.Webpage.Artifacts
import RequestFlow.Webpage.Graph

namespace RequestFlow

/-- What became of a webpage. -/
structure Outcome where
  webpage : String
  flows : Nat := 0
  partialFlows : Nat := 0
  /-- Edges added to the side table. -/
  ownerEdges : Nat := 0
  error : Option String := none
  deriving DecidableEq, Repr, Inhabited

namespace Report

def textFile : String := "sinks.flows.out"

def jsonFile : String := "sinks.flows.out.json"

variable {m : Type → Type} [Monad m] [Files m]

def writeFile (path : Path) (text : String) : ExceptT ArtifactFault m Unit := do
  match ← (Files.write path text : m _) with
  | .ok () => pure ()
  | .error fault => throw (.unwritable path fault)

/-- Writes a report, as JSON and then as text. -/
def write (report : Report) (folder : Path) : ExceptT ArtifactFault m Unit := do
  writeFile (Path.under folder jsonFile) report.jsonText
  writeFile (Path.under folder textFile) report.text

/-- Writes an error in the place of both forms of a report. -/
def writeError (error : String) (folder : Path) : ExceptT ArtifactFault m Unit := do
  let text := (Json.object [("error", .text error)]).compact
  writeFile (Path.under folder textFile) text
  writeFile (Path.under folder jsonFile) text

end Report

namespace Engine

variable {m : Type → Type} [Monad m] [Files m]

/-- The artifacts and the graph in a folder, or the text of the first fault. -/
def load (folder : Path) : ExceptT String m (Artifacts × Store) := do
  let artifacts ← (Artifacts.load folder : ExceptT _ m _).adapt ArtifactFault.message
  let store ← (Store.load folder : ExceptT _ m _).adapt LoadFault.message
  pure (artifacts, store)

/-- Keeps the edges that an analysis has added; gives their number, if they could be kept. -/
def keepOwners (engine : Engine) (folder : Path) (created : List Edge) : m Nat := do
  if engine.config.materialise && !created.isEmpty then
    match ← (Store.appendOwners folder created : ExceptT _ m _).run with
    | .ok _ => pure created.length
    | .error _ => pure 0
  else pure 0

/-- Analyses the webpage in a folder. A webpage that cannot be loaded has an error in the place of a
report. -/
def runWebpage (engine : Engine) (folder : Path) (deadline : Deadline) : m Outcome := do
  let webpage := (Path.fileName? folder).getD ""
  match ← (load folder : ExceptT _ m _).run with
  | .error error =>
    let _ ← (Report.writeError error folder : ExceptT _ m _).run
    pure { webpage, error := some error }
  | .ok (artifacts, store) =>
    let page := { Page.ofArtifacts webpage artifacts with deadline }
    let (report, g) := engine.analyse store.service page
    let written ← (report.write folder : ExceptT _ m _).run
    let ownerEdges ← engine.keepOwners folder g.store.created.toList
    pure
      { webpage
        flows := report.flows.length
        partialFlows := report.partialFlows
        ownerEdges
        error := match written with
          | .ok () => none
          | .error fault => some fault.message }

end Engine

end RequestFlow

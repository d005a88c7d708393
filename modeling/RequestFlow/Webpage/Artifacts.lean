/-
What a crawler leaves beside the graph of a webpage: its address, the names its
markup defines, and the sinks found before.
-/
import RequestFlow.Analysis
import RequestFlow.Files
import RequestFlow.Json.Reader

namespace RequestFlow

inductive ArtifactFault where
  | unreadable (path : Path) (fault : FileFault)
  | malformed (path : Path) (fault : Json.Fault)
  | unwritable (path : Path) (fault : FileFault)
  deriving DecidableEq, Repr

namespace ArtifactFault

def message : ArtifactFault → String
  | unreadable path fault => "Failed to read '" ++ path ++ "': " ++ fault.message
  | malformed path fault => "Invalid JSON in '" ++ path ++ "': " ++ fault.message
  | unwritable path fault => "Failed to write '" ++ path ++ "': " ++ fault.message

/-- The text of the fault underneath. -/
def cause : ArtifactFault → String
  | unreadable _ fault | unwritable _ fault => fault.message
  | malformed _ fault => fault.message

end ArtifactFault

/-- A name that markup defines, and the element it comes from. -/
structure Source where
  name : String
  origin : Option String := none
  deriving DecidableEq, Repr

/-- A sink found before. -/
structure KnownSink where
  id : NodeId
  sinkType : Option String := none
  deriving DecidableEq, Repr

structure Artifacts where
  url : String := ""
  sources : List Source := []
  /-- None if nobody looked for sinks before. -/
  sinks : Option (List KnownSink) := none
  deriving DecidableEq, Repr

/-- A text that may be absent or `null`. -/
def Json.absentText? : Option Json → Option (Option String)
  | none => some none
  | some json => json.optional? Json.text?

def Source.ofJson? (json : Json) : Option Source := do
  match ← json.record? ["name", "origin"] with
  | [some name, origin] => some ⟨← name.text?, ← Json.absentText? origin⟩
  | _ => none

def KnownSink.ofJson? (json : Json) : Option KnownSink := do
  match ← json.record? ["id", "sink_type"] with
  | [some id, sinkType] => some ⟨← id.word?, ← Json.absentText? sinkType⟩
  | _ => none

namespace Artifacts

variable {m : Type → Type} [Monad m] [Files m]

/-- The text of a file, which has to be there. -/
def readText (path : Path) : ExceptT ArtifactFault m String := do
  match ← (Files.read path : m _) with
  | .ok text => pure text
  | .error fault => throw (.unreadable path fault)

/-- The value in a JSON file, if there is such a file. -/
def readJson? {α : Type} (shape? : Json → Option α) (path : Path) :
    ExceptT ArtifactFault m (Option α) := do
  if ← (Files.exists path : m _) then
    match Json.readAs shape? (← readText path) with
    | .ok value => pure (some value)
    | .error fault => throw (.malformed path fault)
  else pure none

/-- Reads what there is in the folder of a webpage. A file that is missing is no fault, a file that
cannot be understood is one. -/
def load (folder : Path) : ExceptT ArtifactFault m Artifacts := do
  let urlPath := Path.under folder "url.out"
  let url ←
    if ← (Files.exists urlPath : m _) then pure (Text.trim (← readText urlPath)) else pure ""
  let sources ← readJson? (·.list? Source.ofJson?) (Path.under folder "sources.out.json")
  let sinks ← readJson? (·.list? KnownSink.ofJson?) (Path.under folder "sinks.out.json")
  pure { url, sources := sources.getD [], sinks }

/-- The folders that a site lists as its webpages, if it lists any. -/
def webpages (site : Path) : ExceptT ArtifactFault m (List String) := do
  pure ((← readJson? (·.list? Json.text?) (Path.under site "webpages.json")).getD [])

end Artifacts

/-- The names of elements that scripts read as `document.<name>`. -/
def Artifacts.documentVariables (artifacts : Artifacts) : List String :=
  documentNames (artifacts.sources.map (·.name))

def Artifacts.sinkIds (artifacts : Artifacts) : Option (List NodeId) :=
  artifacts.sinks.map (·.map (·.id))

def Page.ofArtifacts (webpage : String) (artifacts : Artifacts) : Page where
  webpage
  url := artifacts.url
  sources := artifacts.sources.map (·.name)
  sinkIds := artifacts.sinkIds

end RequestFlow

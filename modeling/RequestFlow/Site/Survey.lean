/-
A site from its folder to its summary: finding the webpages and analysing them
one after the other.
-/
import RequestFlow.Site.Summary

namespace RequestFlow

inductive SiteFault where
  | missing (site : Path)
  | listing (fault : ArtifactFault)
  deriving DecidableEq, Repr

namespace SiteFault

def message : SiteFault → String
  | missing site => "Site directory does not exist: " ++ site
  | listing fault => fault.message

/-- The text of the fault underneath, if there is one. -/
def cause? : SiteFault → Option String
  | missing _ => none
  | listing fault => some fault.cause

end SiteFault

namespace Site

variable {m : Type → Type} [Monad m] [Files m]

/-- Names in the order of their first difference. -/
def namesLe : (a b : List String) → Bool
  | [], _ => true
  | _ :: _, [] => false
  | x :: a, y :: b => if x = y then namesLe a b else x < y

/-- A folder whose name starts with a dot is on the way. -/
def isHidden (names : List String) : Bool := names.any (Text.startsWith ".")

/-- The folders below a site that hold a graph, in order. -/
def graphFolders (site : Path) : m (List Path) := do
  let below := (← Files.foldersBelow site).filter (!isHidden ·)
  let paths := (sortBy namesLe below).map (·.foldl Path.under site)
  paths.filterM fun path => Files.isFile (Path.under path Store.nodesFile)

/-- The webpages of a site: those that it lists, as far as they exist, or else every folder that
holds a graph. -/
def webpages (site : Path) : ExceptT SiteFault m (List Path) := do
  if ← (Files.isFolder site : m _) then
    let listed ← (Artifacts.webpages site : ExceptT _ m _).adapt SiteFault.listing
    if listed.isEmpty then (graphFolders site : m _)
    else (listed.map (Path.under site)).filterM fun path => (Files.isFolder path : m _)
  else throw (.missing site)

/-- Analyses webpages until the time of the site has run out; the others are skipped. -/
def analyseAll (engine : Engine) (clock : m Nat) (started : Nat) :
    List Path → Summary → m Summary
  | [], summary => pure summary
  | path :: rest, summary => do
    if started + 1000 * engine.config.siteTimeout ≤ (← clock) then
      let name := (Path.fileName? path).getD path
      analyseAll engine clock started rest { summary with skipped := summary.skipped ++ [name] }
    else
      let outcome ← engine.runWebpage path .never
      analyseAll engine clock started rest
        { summary with webpages := summary.webpages ++ [outcome] }

/-- Analyses the webpages of a site. The clock counts milliseconds. -/
def survey (config : Config) (clock : m Nat) (site : Path) (pages : List Path) : m Summary := do
  let started ← clock
  let summary ← analyseAll (.ofConfig config) clock started pages { site }
  pure { summary with elapsed := (← clock) - started }

end Site

end RequestFlow

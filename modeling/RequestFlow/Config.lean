/-
The settings of an analysis, their defaults, and the file that spells the
defaults out.
-/
import RequestFlow.Trace.Tracer

namespace RequestFlow

structure Config where
  maxDepth : Nat := defaultMaxDepth
  /-- Lay out slices that contain functions. -/
  layout : Bool := true
  extraBuiltins : List String := []
  /-- Seconds for one webpage. -/
  runTimeout : Nat := 45 * 60
  /-- Seconds for a whole site. -/
  siteTimeout : Nat := 24 * 60 * 60
  /-- Write the owners of `this` into the graph. -/
  materialise : Bool := true
  /-- Names that injected markup can clobber. -/
  clobbered : List String := []
  documentVariables : List String := []
  /-- Names of the sink families that are left out. -/
  disabled : List String := []
  deriving DecidableEq, Repr, Inhabited

namespace Config

def fileName : String := "jaw.toml"

/-- The file that holds the defaults. -/
def defaultLines : List String :=
  let config : Config := {}
  ["[trace]",
   "max_depth = " ++ toString config.maxDepth,
   "beautify = true",
   "extra_builtins = []",
   "",
   "[budget]",
   "run_timeout_secs = " ++ toString config.runTimeout,
   "site_timeout_secs = " ++ toString config.siteTimeout,
   "",
   "[pointer]",
   "materialise = true",
   "",
   "[sources]",
   "domclob = []",
   "document_variables = []",
   "",
   "[sinks]",
   "disabled = []"]

def defaultText : String := String.join (defaultLines.map (· ++ "\n"))

end Config

end RequestFlow

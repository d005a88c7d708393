/-
What the commands do and print.
-/
import RequestFlow.Command.Arguments
import RequestFlow.Config.Reader
import RequestFlow.Site.Survey

namespace RequestFlow

/-- What a command leaves: its exit code and what it printed. -/
structure Ending where
  code : Nat := 0
  output : String := ""
  errors : String := ""
  deriving DecidableEq, Repr

namespace Ending

/-- A command that failed, with the cause underneath if there is one. -/
def failure (message : String) (cause : Option String := none) : Ending where
  code := 1
  errors := "Error: " ++ message ++ "\n"
    ++ (cause.map fun cause => "\nCaused by:\n    " ++ cause ++ "\n").getD ""

/-- Puts texts before what went to the error output. -/
def afterErrors (errors : List String) (ending : Ending) : Ending :=
  { ending with errors := String.join (errors.map (· ++ "\n")) ++ ending.errors }

end Ending

/-- How the program can write and what time it is. -/
structure Console (m : Type → Type) where
  color : Bool := false
  /-- Milliseconds. -/
  clock : m Nat

namespace Command

variable {m : Type → Type} [Monad m] [Files m]

def usage : String :=
  String.join (["Usage: jaw [OPTIONS] <COMMAND>", "", "Commands:",
    "  analyze  Analyse every webpage of a crawled site",
    "  init     Write a default jaw.toml",
    "  explain  Describe a semantic type"].map (· ++ "\n"))

/-! ## Analysing a site -/

def loadConfig (site : Path) : Option Path → ExceptT ConfigFault m Config.Loaded
  | some path => Config.load path
  | none => (Config.nearest site : m _)

def warningLine (color : Bool) (warning : String) : String :=
  Paint.boldYellow.on color "warning:" ++ " " ++ warning

/-- The summary of a site, or that it has no webpages. -/
def survey (color : Bool) (clock : m Nat) (config : Config) (format : String) (site : Path) :
    m Ending := do
  match ← (Site.webpages site : ExceptT _ m _).run with
  | .error fault => pure (.failure fault.message fault.cause?)
  | .ok [] => pure { output := "No webpages found in " ++ site ++ ".\n" }
  | .ok pages =>
    let summary ← Site.survey config clock site pages
    pure { output := if format = "json" then summary.toJson.pretty ++ "\n" else summary.text color }

def runAnalyse (color : Bool) (clock : m Nat) (site : Path) (config : Option Path)
    (format : String) : m Ending := do
  if format ≠ "text" ∧ format ≠ "json" then
    pure (.failure ("Invalid format '" ++ format ++ "'. Valid values: text, json"))
  else match ← (loadConfig site config : ExceptT _ m _).run with
    | .error fault => pure (.failure fault.message fault.cause?)
    | .ok loaded =>
      let ending ← survey color clock loaded.config format site
      pure (ending.afterErrors (loaded.warnings.map (warningLine color)))

/-! ## Writing settings -/

def createdLine (color : Bool) (path : Path) : String :=
  Paint.boldGreen.on color "✓" ++ " Created " ++ Paint.cyan.on color path ++ " configuration file\n"

def runInit (color : Bool) (folder : Path) (force : Bool) : m Ending := do
  let path := Path.under folder Config.fileName
  if !(← Files.isFolder folder) then pure (.failure ("Directory does not exist: " ++ folder))
  else if !force && (← Files.exists path) then
    pure (.failure ("Config file '" ++ path ++ "' already exists. Use --force to overwrite."))
  else match ← Files.write path Config.defaultText with
    | .error fault => pure (.failure fault.message)
    | .ok () => pure { output := createdLine color path }

/-! ## Explaining a type -/

/-- The type of a name, in which hyphens may stand for underscores. -/
def typeNamed? (name : String) : Option SemanticType :=
  SemanticType.ofName? (name.map fun c => if c = '-' then '_' else c)

def kindOf (type : SemanticType) : String :=
  if type = .nonReach then "none" else if type.isSource then "source" else "sink"

def explanation (color : Bool) (type : SemanticType) : List String :=
  let families := SinkFamily.all.filter (·.semanticType == type)
  ["", Paint.bold.on color type.name, "",
   "  " ++ Paint.cyan.on color "description" ++ ": " ++ type.description,
   "  " ++ Paint.cyan.on color "kind" ++ ": " ++ kindOf type]
    ++ (if families.isEmpty then []
      else ["", "  " ++ Paint.cyan.on color "sink families" ++ ":"]
        ++ families.map ("    " ++ ·.name))
    ++ [""]

def unknownType (color : Bool) (name : String) : List String :=
  [Paint.boldRed.on color "error:" ++ " unknown semantic type '" ++ name ++ "'", "",
   "Available semantic types:"]
    ++ SemanticType.all.map fun type => "  " ++ type.name ++ " (" ++ type.description ++ ")"

def runExplain (color : Bool) (name : String) : Ending :=
  match typeNamed? name with
  | some type => { output := String.join ((explanation color type).map (· ++ "\n")) }
  | none => { code := 1, errors := String.join ((unknownType color name).map (· ++ "\n")) }

/-! ## Any command -/

def run (console : Console m) : Command → m Ending
  | analyse site config format plain =>
    runAnalyse (console.color && !plain) console.clock site config format
  | init folder force => runInit console.color (folder.getD ".") force
  | explain name => pure (runExplain console.color name)
  | version => pure { output := "jaw " ++ Summary.version ++ "\n" }
  | help => pure { output := usage }

/-- Runs a command line. One that is not understood shows how it is meant, with code 2. -/
def runLine (console : Console m) (words : List String) : m Ending :=
  match read? words with
  | some command => run console command
  | none => pure { code := 2, errors := usage }

end Command

end RequestFlow

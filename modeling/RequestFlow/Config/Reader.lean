/-
Settings from a file: sections of a TOML document, warnings about keys that mean
nothing, and the search for the nearest file.
-/
import RequestFlow.Config
import RequestFlow.Files
import RequestFlow.Toml.Dates
import RequestFlow.Toml.Reader

namespace RequestFlow

namespace Toml

def natural? : Toml → Option Nat
  | integer value => if 0 ≤ value then some value.toNat else none
  | _ => none

def flag? : Toml → Option Bool
  | flag value => some value
  | _ => none

def text? : Toml → Option String
  | text value => some value
  | _ => none

def texts? : Toml → Option (List String)
  | list items | tables items => items.mapM text?
  | _ => none

/-- The values of a section in the order of its keys: by name from a table, or by position from a
list. A date has none of the keys. -/
def section? (keys : List String) : Option Toml → Option (List (Option Toml))
  | none | some moment => some (keys.map fun _ => none)
  | some (table _ fields) => some (keys.map (Fields.get? fields))
  | some (list items) | some (tables items) => some (keys.mapIdx fun i _ => items[i]?)
  | some _ => none

/-- A value that may be absent. -/
def orDefault {α : Type} (default : α) (shape? : Toml → Option α) : Option Toml → Option α
  | none => some default
  | some value => shape? value

end Toml

inductive ConfigFault where
  | unreadable (path : Path) (fault : FileFault)
  | malformed (path : Path)
  deriving DecidableEq, Repr

namespace ConfigFault

def message : ConfigFault → String
  | unreadable path fault => "Failed to read config file '" ++ path ++ "': " ++ fault.message
  | malformed path => "Invalid TOML in '" ++ path ++ "': unexpected text"

/-- The text of the fault underneath, if there is one. -/
def cause? : ConfigFault → Option String
  | unreadable _ fault => some fault.message
  | malformed _ => none

end ConfigFault

namespace Config

/-- The sections and their keys. -/
def sections : List (String × List String) :=
  [("trace", ["max_depth", "beautify", "extra_builtins"]),
   ("budget", ["run_timeout_secs", "site_timeout_secs"]),
   ("pointer", ["materialise"]),
   ("sources", ["domclob", "document_variables"]),
   ("sinks", ["disabled"])]

open Toml (natural? flag? texts? orDefault)

/-- The values of a document, section by section. -/
def values? (fields : Toml.Fields) : Option (List (Option Toml)) := do
  let found ← sections.mapM fun (name, keys) => Toml.section? keys (fields.get? name)
  some found.flatten

/-- The settings of a document. What is absent has its default. -/
def ofToml? (fields : Toml.Fields) : Option Config := do
  let defaults : Config := {}
  match ← values? fields with
  | [maxDepth, layout, extraBuiltins, runTimeout, siteTimeout, materialise, clobbered,
     documentVariables, disabled] =>
    some
      { maxDepth := ← orDefault defaults.maxDepth natural? maxDepth
        layout := ← orDefault defaults.layout flag? layout
        extraBuiltins := ← orDefault defaults.extraBuiltins texts? extraBuiltins
        runTimeout := ← orDefault defaults.runTimeout natural? runTimeout
        siteTimeout := ← orDefault defaults.siteTimeout natural? siteTimeout
        materialise := ← orDefault defaults.materialise flag? materialise
        clobbered := ← orDefault defaults.clobbered texts? clobbered
        documentVariables := ← orDefault defaults.documentVariables texts? documentVariables
        disabled := ← orDefault defaults.disabled texts? disabled }
  | _ => none

/-- The keys outside a list, in order. -/
def unknownKeys (known : List String) (fields : Toml.Fields) : List String :=
  sortBy (fun a b => a ≤ b) ((fields.map (·.1)).filter (!known.contains ·))

/-- A warning for each key that means nothing, in a document of plain data and then in each of its
sections. -/
def plainWarnings (fields : Toml.Fields) : List String :=
  (unknownKeys (sections.map (·.1)) fields).map
      (fun key => "Unknown config option: '" ++ key ++ "'")
    ++ sections.flatMap fun (name, keys) => match fields.get? name with
      | some (.table _ inner) => (unknownKeys keys inner).map fun key =>
        "Unknown config option in [" ++ name ++ "]: '" ++ key ++ "'"
      | _ => []

/-- The warnings about a document. One that cannot be taken as plain data has none. -/
def warnings (fields : Toml.Fields) : List String :=
  ((Toml.plainFields? fields).map plainWarnings).getD []

/-- Settings, and the warnings about their file. -/
structure Loaded where
  config : Config := {}
  warnings : List String := []
  deriving DecidableEq, Repr

def ofText? (text : String) : Option Loaded := do
  let fields ← Toml.read text
  some ⟨← ofToml? fields, Config.warnings fields⟩

variable {m : Type → Type} [Monad m] [Files m]

def load (path : Path) : ExceptT ConfigFault m Loaded := do
  match ← (Files.read path : m _) with
  | .error fault => throw (.unreadable path fault)
  | .ok text => match ofText? text with
    | some loaded => pure loaded
    | none => throw (.malformed path)

/-- The first of these paths that exists. -/
def firstExisting? : List Path → m (Option Path)
  | [] => pure none
  | path :: rest => do if ← Files.exists path then pure (some path) else firstExisting? rest

/-- The settings file of a folder or of the nearest folder around it that has one. -/
def find? (folder : Path) : m (Option Path) :=
  firstExisting? ((Path.ancestors folder).map (Path.under · fileName))

/-- The settings of the nearest file; the defaults if there is none, or none that can be read. -/
def nearest (folder : Path) : m Loaded := do
  match ← (find? folder : m _) with
  | none => pure {}
  | some path => match ← (load path : ExceptT _ m _).run with
    | .ok loaded => pure loaded
    | .error _ => pure {}

end Config

end RequestFlow

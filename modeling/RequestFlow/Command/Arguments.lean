/-
The command line: its options, and the command that its words stand for.
-/
import RequestFlow.Files.Path
import RequestFlow.Text.Numeral

namespace RequestFlow

inductive Command where
  | analyse (site : Path) (config : Option Path) (format : String) (plain : Bool)
  | init (folder : Option Path) (force : Bool)
  | explain (name : String)
  | version
  | help
  deriving DecidableEq, Repr

namespace Arguments

/-- An option. -/
structure Switch where
  long : String
  short : Option Char := none
  /-- What is accepted as its value, if it has one. -/
  accepts : Option (String → Bool) := none

def anyText : String → Bool := fun _ => true

def isPath (s : String) : Bool := !s.isEmpty

def isCount (s : String) : Bool := (Numeral.read s.toList).toOption.isSome

def logLevels : List String := ["trace", "debug", "info", "warn", "error"]

/-- The options that may stand anywhere. -/
def common : List Switch :=
  [{ long := "log-level", accepts := some logLevels.contains },
   { long := "log-file", accepts := some isPath },
   { long := "log-json" },
   { long := "help", short := some 'h' }]

def atStart : List Switch := common ++ [{ long := "version", short := some 'V' }]

def forAnalyse : List Switch :=
  common ++
    [{ long := "config", short := some 'c', accepts := some isPath },
     { long := "jobs", short := some 'j', accepts := some isCount },
     { long := "format", short := some 'f', accepts := some anyText },
     { long := "no-color" }]

def forInit : List Switch := common ++ [{ long := "force", short := some 'f' }]

/-- What a command takes: its options, and what is accepted as each of its words. -/
structure Form where
  switches : List Switch
  words : List (String → Bool) := []

/-- What stands before the name of a command, and that name. -/
def startForm : Form := ⟨atStart, [anyText]⟩

def analyseForm : Form := ⟨forAnalyse, [isPath]⟩

def initForm : Form := ⟨forInit, [isPath]⟩

def explainForm : Form := ⟨common, [anyText]⟩

/-- What was given: options with their values, in order, and other words. -/
structure Given where
  switches : List (String × String) := []
  words : List String := []
  deriving DecidableEq, Repr

namespace Given

def has (given : Given) (name : String) : Bool := given.switches.any (·.1 == name)

def value? (given : Given) (name : String) : Option String :=
  (given.switches.find? (·.1 == name)).map (·.2)

/-- Adds an option. None may be given twice, and its value has to be accepted. -/
def add (given : Given) (switch : Switch) (value : String) : Option Given :=
  if given.has switch.long || !switch.accepts.all (· value) then none
  else some { given with switches := given.switches ++ [(switch.long, value)] }

/-- Adds a word, if the form has a place left for it and accepts it there. -/
def addWord (given : Given) (form : Form) (word : String) : Option Given := do
  let accepts ← form.words[given.words.length]?
  if accepts word then some { given with words := given.words ++ [word] } else none

end Given

/-- Options that end the reading of a line as soon as they are met. -/
def Switch.isShortcut (switch : Switch) : Bool :=
  switch.long == "help" || switch.long == "version"

/-- A word that cannot be the value of an option before it. -/
def looksLikeSwitch (word : String) : Bool := Text.startsWith "-" word && word != "-"

/-- An option that has to be followed by its value. -/
def needsNext (switch : Switch) (attached : Option String) : Bool :=
  switch.accepts.isSome && attached.isNone

/-- The options of a word `-abc`: letters one after the other, up to one that ends the line or has
a value. What follows a letter with a value, perhaps after an equals sign, is the value. -/
def letters (switches : List Switch) : List Char → Option (List (Switch × Option String))
  | [] => some []
  | c :: rest => do
    let switch ← switches.find? (·.short == some c)
    if switch.accepts.isSome then
      let attached := match rest with
        | [] => none
        | '=' :: value => some (String.ofList value)
        | value => some (String.ofList value)
      some [(switch, attached)]
    else if switch.isShortcut then some [(switch, none)]
    else some ((switch, none) :: (← letters switches rest))

/-- The options that a word stands for, each with the value attached to it. -/
def ofWord (switches : List Switch) (word : String) : Option (List (Switch × Option String)) :=
  match word.toList with
  | '-' :: '-' :: name => do
    let (name, attached) := Chars.cutAt '=' name
    let switch ← switches.find? (·.long == String.ofList name)
    if attached.isSome && switch.accepts.isNone then none
    else some [(switch, attached.map String.ofList)]
  | '-' :: name => letters switches name
  | _ => none

/-- Where reading of a line stands. -/
structure Progress where
  given : Given := {}
  /-- The option whose value comes next. -/
  pending : Option Switch := none
  /-- Only words follow. -/
  wordsOnly : Bool := false

/-- Adds options; one without its value waits for the next word. -/
def addAll (progress : Progress) : List (Switch × Option String) → Option Progress
  | [] => some progress
  | (switch, attached) :: rest =>
    if needsNext switch attached then
      if progress.given.has switch.long then none else some { progress with pending := some switch }
    else do
      let given ← progress.given.add switch (attached.getD "")
      addAll { progress with given } rest

/-- Reads one word. -/
def step (form : Form) (progress : Progress) (word : String) : Option Progress :=
  match progress.pending with
  | some switch =>
    if looksLikeSwitch word then none
    else do
      let given ← progress.given.add switch word
      some { progress with given, pending := none }
  | none =>
    if progress.wordsOnly || !looksLikeSwitch word then do
      let given ← progress.given.addWord form word
      some { progress with given }
    else if word = "--" then some { progress with wordsOnly := true }
    else do addAll progress (← ofWord form.switches word)

/-- Help and version are given as soon as they are asked for. -/
def shortcut? (given : Given) : Option Command :=
  (given.switches.find? fun s => s.1 == "help" || s.1 == "version").map fun s =>
    if s.1 = "help" then .help else .version

/-- A whole line of words, or the shortcut met first. -/
def readAll (form : Form) : Progress → List String → Option (Command ⊕ Given)
  | progress, [] => if progress.pending.isSome then none else some (.inr progress.given)
  | progress, word :: rest => do
    let progress ← step form progress word
    match shortcut? progress.given with
    | some command => some (.inl command)
    | none => readAll form progress rest

/-- The command that the words after a command's name stand for. -/
def finish (form : Form) (command? : Given → Option Command) (words : List String) :
    Option Command := do
  match ← readAll form {} words with
  | .inl command => some command
  | .inr given => command? given

def analyse? (given : Given) : Option Command :=
  given.words.head?.map fun site =>
    .analyse site (given.value? "config") ((given.value? "format").getD "text")
      (given.has "no-color")

def init? (given : Given) : Option Command :=
  some (.init given.words.head? (given.has "force"))

def explain? (given : Given) : Option Command := given.words.head?.map .explain

def commandNames : List String := ["analyze", "init", "explain", "help"]

/-- Help is given on the whole, or on one command. -/
def help? : List String → Option Command
  | [] => some .help
  | [name] => if commandNames.contains name then some .help else none
  | _ => none

/-- The command of a name and the words after it. -/
def named? (name : String) (words : List String) : Option Command :=
  match name with
  | "analyze" => finish analyseForm analyse? words
  | "init" => finish initForm init? words
  | "explain" => finish explainForm explain? words
  | "help" => help? words
  | _ => none

/-- Reads options up to the name of a command, and then the command. -/
def readStart : Progress → List String → Option Command
  | _, [] => none
  | progress, word :: rest => do
    let next ← step startForm progress word
    match shortcut? next.given with
    | some command => some command
    | none =>
      if next.given.words.isEmpty then readStart next rest
      else if progress.wordsOnly then none
      else named? word rest

end Arguments

/-- The command that a command line stands for; none if it is not understood. -/
def Command.read? (words : List String) : Option Command := Arguments.readStart {} words

end RequestFlow

/-
Fingerprints: what the code of a slice looks like when it reads a source that
an attacker may control, and the tagging of slices by them.
-/
import RequestFlow.Semantic.Type
import RequestFlow.Text.Pattern.Size
import RequestFlow.Trace.Slice

namespace RequestFlow

/-- How a fingerprint is recognised. -/
inductive Mark where
  /-- A pattern that occurs in code or in a name. -/
  | pattern (p : Pattern)
  /-- A name of its own. -/
  | name (name : String)
  deriving DecidableEq, Repr

structure Fingerprint where
  type : SemanticType
  mark : Mark
  deriving DecidableEq, Repr

/-- A text to be tagged: code, or a name mentioned by it. -/
inductive Tagged where
  | code (text : String)
  | name (text : String)

def Mark.fits : Mark → Tagged → Bool
  | pattern p, .code text | pattern p, .name text => p.occursIn text
  | name n, .name text => text == n
  | name _, .code _ => false

/-- The fingerprints in use, and the names of elements that a page offers as `document.<name>`. -/
structure Fingerprints where
  table : List Fingerprint := []
  documentVariables : List String := []
  deriving Repr, Inhabited

namespace Fingerprints

open Pattern (text anyOf whole entire optional blanks wordChars)

/-- Adds a pattern, unless it is too large to be searched for. -/
def addPattern (f : Fingerprints) (type : SemanticType) (p : Pattern) : Fingerprints :=
  if p.isTooLarge then f else { f with table := f.table ++ [⟨type, .pattern p⟩] }

/-- Adds a name of its own, unless it is too long to be searched for. -/
def addName (f : Fingerprints) (type : SemanticType) (name : String) : Fingerprints :=
  if (entire (text name)).isTooLarge then f
  else { f with table := f.table ++ [⟨type, .name name⟩] }

def locationSources : List Fingerprint :=
  [⟨.rdWinLoc, .pattern (whole (text "window.location"))⟩,
   ⟨.rdWinLoc, .pattern (whole (text "location." ++
      anyOf ["href", "hash", "search", "pathname", "host", "hostname", "origin", "toString"]))⟩,
   ⟨.rdWinLoc, .pattern (whole (text "document." ++
      anyOf ["location", "URL", "documentURI", "baseURI"]))⟩,
   ⟨.rdWinLoc, .pattern (whole (text "History.getBookmarkedState"))⟩,
   ⟨.rdWinLoc, .name "location"⟩,
   ⟨.rdWinName, .pattern (whole (text "window.name"))⟩]

def documentSources : List Fingerprint :=
  [⟨.rdDocRef, .pattern (whole (text "document.referrer"))⟩,
   ⟨.rdCookie, .pattern (whole (text "document.cookie"))⟩,
   ⟨.rdWebStorage, .pattern (whole (anyOf ["localStorage", "sessionStorage"]))⟩]

/-- An opening parenthesis, perhaps after blanks. -/
def openParen : Pattern := blanks ++ text "("

def elementSources : List Fingerprint :=
  [⟨.rdDom, .pattern (.wordEdge ++ text "getElement" ++ optional (text "s") ++ text "By"
      ++ wordChars ++ openParen)⟩,
   ⟨.rdDom, .pattern (text ".querySelector" ++ optional (text "All") ++ openParen)⟩,
   ⟨.rdDom, .pattern (.alt .start (.set (.except (.union .word (.union (.one '$') (.one '.')))))
      ++ text "$" ++ openParen)⟩,
   ⟨.rdDom, .pattern (.wordEdge ++ text "jQuery" ++ openParen)⟩,
   ⟨.rdDom, .pattern (text ".attr" ++ openParen)⟩,
   ⟨.rdDom, .pattern (text ".getAttribute" ++ openParen)⟩,
   ⟨.rdDom, .pattern (text ".readAttribute" ++ openParen)⟩]

def messageSources : List Fingerprint :=
  [⟨.rdPm, .pattern (whole (anyOf ["e", "ev", "evt", "event", "msg", "message"] ++ text ".data"))⟩,
   ⟨.reqPushSub, .pattern (whole (text "pushManager"))⟩]

/-- The fingerprints that every analysis starts with. -/
def defaults : Fingerprints :=
  { table := locationSources ++ documentSources ++ elementSources ++ messageSources }

/-- Adds a name that injected markup can clobber. A name of the window also counts on its own. -/
def addClobbered (f : Fingerprints) (name : String) : Fingerprints :=
  let name := Text.trim name
  match Text.after? "document." name with
  | some rest => f.addPattern .domclobDoc (whole (text ("document." ++ rest)))
  | none =>
    let rest := (Text.after? "window." name).getD name
    (f.addPattern .domclobWin (whole (text ("window." ++ rest)))).addName .domclobWin rest

/-- Adds the name of an element; blank names and names already there change nothing. -/
def addDocumentVariable (f : Fingerprints) (name : String) : Fingerprints :=
  let name := Text.trim name
  if name.isEmpty || f.documentVariables.contains name then f
  else { f with documentVariables := f.documentVariables ++ [name] }

/-- The text reads the element of that name. -/
def readsVariable (name : String) : Tagged → Bool
  | .name text => text == name
  | .code text => Text.contains ("document." ++ name) text

/-- The types of the fingerprints that fit, and the type of element reads. -/
def typesOf (f : Fingerprints) (extra : List String) (tagged : Tagged) : List SemanticType :=
  (f.table.filter (·.mark.fits tagged)).map (·.type)
    ++ ((f.documentVariables ++ extra).filter (readsVariable · tagged)).map fun _ => .rdDom

/-- The types of a piece of code. -/
def tagCode (f : Fingerprints) (code : String) : TypeSet :=
  (TypeSet.ofList (f.typesOf [] (.code code))).orNonReach

/-- The types of a slice, from its code and from the names it mentions. -/
def tagSlice (f : Fingerprints) (slice : Slice) (extra : List String) : TypeSet :=
  let tagged := Tagged.code slice.code :: slice.identifiers.map .name
  (TypeSet.ofList (tagged.flatMap (f.typesOf extra))).orNonReach

/-- The types of all slices together. -/
def tagSlices (f : Fingerprints) (slices : List Slice) (extra : List String) : TypeSet :=
  let types := slices.foldl (fun (types : TypeSet) slice => types.union (f.tagSlice slice extra)) {}
  types.orNonReach

end Fingerprints

end RequestFlow

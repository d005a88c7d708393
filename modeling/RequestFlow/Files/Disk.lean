/-
A file system in memory: files and folders by the names that lead to them.
-/
import RequestFlow.Files

namespace RequestFlow

inductive Entry where
  | file (bytes : ByteArray)
  | folder

def Entry.ofText (text : String) : Entry := .file text.toUTF8

structure Disk where
  /-- Everything on the disk, each place once; the root is not listed. -/
  entries : List (List String × Entry) := []
  /-- The folder that relative paths start from. -/
  here : List String := []

namespace Disk

/-- What is at a place. The root is a folder. -/
def entry? (disk : Disk) (place : List String) : Option Entry :=
  if place.isEmpty then some .folder else (disk.entries.find? (·.1 == place)).map (·.2)

/-- Puts an entry at a place, in the stead of what was there. -/
def put (disk : Disk) (place : List String) (entry : Entry) : Disk :=
  if disk.entries.any (·.1 == place) then
    { disk with entries := disk.entries.map fun e => if e.1 == place then (place, entry) else e }
  else { disk with entries := disk.entries ++ [(place, entry)] }

/-- Makes the folders on the way to a place. -/
def makeFolders (disk : Disk) (place : List String) : Disk :=
  ((List.range place.length).map place.take).foldl
    (fun disk folder => if (disk.entry? folder).isSome then disk else disk.put folder .folder) disk

/-- Puts an entry at a place and makes the folders around it. -/
def insert (disk : Disk) (place : List String) (entry : Entry) : Disk :=
  (disk.makeFolders place).put place entry

/-- How many bytes a name may have. -/
def nameLimit : Nat := 255

/-- How many bytes a path may have. -/
def pathLimit : Nat := 4095

/-- The place that names lead to from a folder. Only the last name may be missing. -/
def walk (disk : Disk) (place : List String) : List String → Except FileFault (List String)
  | [] => .ok place
  | name :: rest => match disk.entry? place with
    | none => .error .missing
    | some (.file _) => .error .notFolder
    | some .folder =>
      if name = ".." then walk disk place.dropLast rest
      else if nameLimit < name.utf8ByteSize then .error .nameTooLong
      else walk disk (place ++ [name]) rest

def place (disk : Disk) (path : Path) : Except FileFault (List String) :=
  if path.toList.contains '\x00' then .error .nulInName
  else if path.isEmpty then .error .missing
  else if pathLimit < path.utf8ByteSize then .error .nameTooLong
  else disk.walk (if path.isAbsolute then [] else disk.here) path.names

/-- What a path leads to. -/
def find (disk : Disk) (path : Path) : Except FileFault Entry := do
  match disk.entry? (← disk.place path) with
  | none => .error .missing
  | some (.file bytes) => if path.endsInFolder then .error .notFolder else .ok (.file bytes)
  | some .folder => .ok .folder

def isFolder (disk : Disk) (path : Path) : Bool := disk.find path matches .ok .folder

def isFile (disk : Disk) (path : Path) : Bool := disk.find path matches .ok (.file _)

def read (disk : Disk) (path : Path) : Except FileFault String := do
  match ← disk.find path with
  | .folder => .error .isFolder
  | .file bytes => match String.fromUTF8? bytes with
    | some text => .ok text
    | none => .error .notText

/-- Changes the bytes of a file, which start empty when there is none. -/
def change (disk : Disk) (path : Path) (f : ByteArray → ByteArray) : Except FileFault Disk := do
  let place ← disk.place path
  match disk.entry? place with
  | some .folder => .error .isFolder
  | some (.file bytes) =>
    if path.endsInFolder then .error .notFolder else .ok (disk.put place (.file (f bytes)))
  | none => match disk.entry? place.dropLast with
    | some .folder =>
      if path.endsInFolder then .error .isFolder else .ok (disk.put place (.file (f .empty)))
    | some (.file _) => .error .notFolder
    | none => .error .missing

def write (disk : Disk) (path : Path) (text : String) : Except FileFault Disk :=
  disk.change path fun _ => text.toUTF8

def append (disk : Disk) (path : Path) (text : String) : Except FileFault Disk :=
  disk.change path fun bytes => bytes ++ text.toUTF8

/-- What leads from one place to another below it. -/
def below? : (place other : List String) → Option (List String)
  | [], other => some other
  | _ :: _, [] => none
  | name :: place, other :: rest => if name = other then below? place rest else none

def foldersBelow (disk : Disk) (path : Path) : List (List String) :=
  match disk.place path with
  | .error _ => []
  | .ok place => disk.entries.filterMap fun (other, entry) => match entry with
    | .folder => (below? place other).filter (!·.isEmpty)
    | .file _ => none

/-- Makes a change, if it is possible. -/
def apply (change : Disk → Except FileFault Disk) : StateM Disk (Except FileFault Unit) := do
  match change (← get) with
  | .ok disk => set disk; pure (.ok ())
  | .error fault => pure (.error fault)

instance : Files (StateM Disk) where
  isFolder path := do pure ((← get).isFolder path)
  isFile path := do pure ((← get).isFile path)
  read path := do pure ((← get).read path)
  write path text := apply (·.write path text)
  append path text := apply (·.append path text)
  foldersBelow path := do pure ((← get).foldersBelow path)

end Disk

end RequestFlow

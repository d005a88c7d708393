/-
Paths as text: names between slashes. Empty names and single dots mean nothing,
except for a slash at the start and for what a path ends with.
-/
import RequestFlow.Text.Pieces

namespace RequestFlow

abbrev Path := String

namespace Path

def isAbsolute (path : Path) : Bool := Text.startsWith "/" path

/-- A segment between slashes that names nothing. -/
def isVoid (segment : List Char) : Bool := segment.isEmpty || segment == ['.']

def segments (path : Path) : List (List Char) := Chars.fields '/' path.toList

/-- The names on the way, `..` among them. -/
def names (path : Path) : List String :=
  (path.segments.filter (!isVoid ·)).map String.ofList

/-- The path ends in a slash or a dot, so it can only be a folder. -/
def endsInFolder (path : Path) : Bool := path.segments.getLast?.any isVoid

/-- The path of something inside a folder; an absolute path stays what it is. -/
def under (path tail : Path) : Path :=
  if tail.isAbsolute then tail
  else if path.isEmpty || Text.endsWith "/" path then path ++ tail
  else path ++ "/" ++ tail

/-- The last name, unless the path ends in `..`. -/
def fileName? (path : Path) : Option String :=
  match path.names.getLast? with
  | some ".." => none
  | last => last

/-- Drops the segments at the end that name nothing. The first segment stays: it is empty for an
absolute path, and a dot there is a name. -/
def trimSegments : List (List Char) → List (List Char)
  | [] => []
  | first :: rest => first :: (rest.reverse.dropWhile isVoid).reverse

/-- The path without its last name. -/
def parent? (path : Path) : Option Path :=
  if path.isEmpty then none
  else match trimSegments path.segments with
    | [] | [[]] => none
    | segments => match trimSegments segments.dropLast with
      | [[]] => some "/"
      | kept => some (String.ofList (List.intercalate ['/'] kept))

/-- The path and what is left of it as its names are dropped, one after the other. -/
def ancestors (path : Path) : List Path := go path.length path
where
  go : Nat → Path → List Path
    | 0, path => [path]
    | fuel + 1, path => match parent? path with
      | some parent => path :: go fuel parent
      | none => [path]

end Path

end RequestFlow

/-
Cutting texts into pieces: leading and trailing parts, fields between
separators, and lines.
-/

namespace RequestFlow

namespace Chars

/-- What follows `head` in `s`, when `s` starts with it. -/
def after? : (head s : List Char) → Option (List Char)
  | [], s => some s
  | _ :: _, [] => none
  | c :: head, d :: s => if c = d then after? head s else none

def startsWith (head s : List Char) : Bool := (after? head s).isSome

/-- `needle` stands somewhere in `s`. -/
def contains (needle : List Char) : List Char → Bool
  | [] => startsWith needle []
  | c :: s => startsWith needle (c :: s) || contains needle s

/-- The fields between the separators; one more than there are separators. -/
def fields (separator : Char) : List Char → List (List Char)
  | [] => [[]]
  | c :: s =>
    if c = separator then [] :: fields separator s
    else match fields separator s with
      | [] => [[c]]
      | first :: rest => (c :: first) :: rest

/-- What follows the last occurrence of `mark`, when there is one. -/
def afterLast? (mark : List Char) : List Char → Option (List Char)
  | [] => after? mark []
  | c :: s => match afterLast? mark s with
    | some rest => some rest
    | none => after? mark (c :: s)

/-- What stands before the first `c`, and after it when there is one. -/
def cutAt (c : Char) : List Char → List Char × Option (List Char)
  | [] => ([], none)
  | d :: s =>
    if d = c then ([], some s)
    else let (head, tail) := cutAt c s; (d :: head, tail)

/-- Every non-overlapping occurrence of a doubled `c` becomes a single one. -/
def undouble (c : Char) : List Char → List Char
  | [] => []
  | [d] => [d]
  | d :: e :: s => if d = c ∧ e = c then c :: undouble c s else d :: undouble c (e :: s)

/-- A carriage return right before a line feed belongs to the line's end. -/
def dropReturn (line : List Char) : List Char :=
  match line.reverse with
  | '\r' :: rest => rest.reverse
  | _ => line

/-- The lines of a text. A final line feed ends the last line and opens no new one; the last
line keeps its carriage return when no line feed follows. -/
def lines (s : List Char) : List (List Char) :=
  close (fields '\n' s)
where
  close : List (List Char) → List (List Char)
    | [] => []
    | [last] => if last.isEmpty then [] else [last]
    | line :: rest => dropReturn line :: close rest

end Chars

namespace Text

def after? (head s : String) : Option String :=
  (Chars.after? head.toList s.toList).map String.ofList

def startsWith (head s : String) : Bool := Chars.startsWith head.toList s.toList

def endsWith (tail s : String) : Bool :=
  Chars.startsWith tail.toList.reverse s.toList.reverse

def contains (needle s : String) : Bool := Chars.contains needle.toList s.toList

def fields (separator : Char) (s : String) : List String :=
  (Chars.fields separator s.toList).map String.ofList

def lines (s : String) : List String := (Chars.lines s.toList).map String.ofList

/-- ASCII letters in upper case; every other character stays. -/
def upper (s : String) : String := s.map Char.toUpper

end Text

end RequestFlow

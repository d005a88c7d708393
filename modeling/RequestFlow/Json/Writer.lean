/-
Writing JSON text: in one line, or with one item to a line and two blanks for
each level.
-/
import RequestFlow.Json

namespace RequestFlow

namespace Json

namespace Writer

def hexDigit (n : Nat) : Char := if n < 10 then Char.ofNat (n + 48) else Char.ofNat (n + 87)

/-- A character inside a string. -/
def escape (c : Char) : List Char :=
  if c = '"' then ['\\', '"']
  else if c = '\\' then ['\\', '\\']
  else if c = '\x08' then ['\\', 'b']
  else if c = '\x0c' then ['\\', 'f']
  else if c = '\n' then ['\\', 'n']
  else if c = '\r' then ['\\', 'r']
  else if c = '\t' then ['\\', 't']
  else if c.toNat < 0x20 then
    ['\\', 'u', '0', '0', hexDigit (c.toNat / 16), hexDigit (c.toNat % 16)]
  else [c]

def string (s : String) : List Char := '"' :: s.toList.flatMap escape ++ ['"']

/-- The values that are written in one piece. -/
def atom : Json → List Char
  | flag true => ['t', 'r', 'u', 'e']
  | flag false => ['f', 'a', 'l', 's', 'e']
  | integer value => (toString value).toList
  | decimal written => written.toList
  | text value => string value
  | _ => ['n', 'u', 'l', 'l']

def newline (level : Nat) : List Char := '\n' :: List.replicate (2 * level) ' '

/-- How the parts of lists and objects are set apart. -/
structure Style where
  /-- What stands before an item of that level, and before a closing bracket. -/
  gap : Nat → List Char
  colon : List Char

def compact : Style := ⟨fun _ => [], [':']⟩

def pretty : Style := ⟨newline, [':', ' ']⟩

mutual

def value (style : Style) (level : Nat) : Json → List Char
  | list [] => ['[', ']']
  | list (first :: rest) =>
    '[' :: style.gap (level + 1) ++ value style (level + 1) first
      ++ items style (level + 1) rest ++ style.gap level ++ [']']
  | object [] => ['\x7b', '\x7d']
  | object (first :: rest) =>
    '\x7b' :: style.gap (level + 1) ++ field style (level + 1) first
      ++ fields style (level + 1) rest ++ style.gap level ++ ['\x7d']
  | json => atom json

/-- Further items, each after a comma. -/
def items (style : Style) (level : Nat) : List Json → List Char
  | [] => []
  | item :: rest => ',' :: style.gap level ++ value style level item ++ items style level rest

def field (style : Style) (level : Nat) : String × Json → List Char
  | (name, json) => string name ++ style.colon ++ value style level json

/-- Further fields, each after a comma. -/
def fields (style : Style) (level : Nat) : List (String × Json) → List Char
  | [] => []
  | item :: rest => ',' :: style.gap level ++ field style level item ++ fields style level rest

end

end Writer

/-- The value in one line. -/
def compact (json : Json) : String := String.ofList (Writer.value Writer.compact 0 json)

/-- The value with one item to a line. -/
def pretty (json : Json) : String := String.ofList (Writer.value Writer.pretty 0 json)

end Json

end RequestFlow

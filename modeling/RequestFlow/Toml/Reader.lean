/-
Reading TOML text: strings, keys, values and statements.
-/
import RequestFlow.Text.Pieces
import RequestFlow.Toml.Scalar

namespace RequestFlow

namespace Toml

namespace Reader

def isGap (c : Char) : Bool := c == ' ' || c == '\t'

def skipGap (s : List Char) : List Char := s.dropWhile isGap

/-- What follows the end of a line. -/
def newline? : List Char → Option (List Char)
  | '\n' :: rest => some rest
  | '\r' :: '\n' :: rest => some rest
  | _ => none

/-- A character that may stand in a comment or a string. -/
def isPlain (c : Char) : Bool := c == '\t' || (0x20 ≤ c.toNat && c.toNat ≠ 0x7F)

/-- Drops a comment, if there is one. -/
def skipComment : List Char → List Char
  | '#' :: rest => rest.dropWhile isPlain
  | s => s

/-- What follows a line after its last word. -/
def lineEnd? (s : List Char) : Option (List Char) :=
  match skipComment (skipGap s) with
  | [] => some []
  | s => newline? s

/-- Drops gaps, comments and ends of lines. -/
def skipLines : (fuel : Nat) → List Char → List Char
  | 0, s => s
  | fuel + 1, s => match newline? (skipComment (skipGap s)) with
    | some rest => skipLines fuel rest
    | none => skipComment (skipGap s)

/-! ## Strings -/

/-- The character of a number, if it is one. -/
def scalar? (n : Nat) : Option Char := if n.isValidChar then some (Char.ofNat n) else none

def hex? (s : List Char) : Option Nat :=
  s.foldlM (fun value c => do some (value * 16 + (← Scalar.digit? 16 c))) 0

def escape? : Char → Option Char
  | '"' => some '"'
  | '\\' => some '\\'
  | 'b' => some '\x08'
  | 'f' => some '\x0c'
  | 'n' => some '\n'
  | 'r' => some '\r'
  | 't' => some '\t'
  | _ => none

/-- Puts a character before the contents read after it. -/
def put (c : Char) (read : Option (List Char × List Char)) : Option (List Char × List Char) :=
  read.map fun (contents, rest) => (c :: contents, rest)

/-- A string in double quotes, after the first. -/
def basic : List Char → Option (List Char × List Char)
  | '"' :: rest => some ([], rest)
  | '\\' :: 'u' :: a :: b :: c :: d :: rest => do
    put (← scalar? (← hex? [a, b, c, d])) (basic rest)
  | '\\' :: 'U' :: a :: b :: c :: d :: e :: f :: g :: h :: rest => do
    put (← scalar? (← hex? [a, b, c, d, e, f, g, h])) (basic rest)
  | '\\' :: c :: rest => do put (← escape? c) (basic rest)
  | c :: rest => if isPlain c then put c (basic rest) else none
  | [] => none

/-- A string in single quotes, after the first. -/
def literal : List Char → Option (List Char × List Char)
  | '\x27' :: rest => some ([], rest)
  | c :: rest => if isPlain c then put c (literal rest) else none
  | [] => none

/-- A string in three double quotes, after them. A backslash at the end of a line makes it go on at
the next character that is no blank; `skipping` is on the way there. Two quotes may stand before the
last three. -/
def longBasic (skipping : Bool) : List Char → Option (List Char × List Char)
  | '"' :: '"' :: '"' :: '"' :: '"' :: rest => some (['"', '"'], rest)
  | '"' :: '"' :: '"' :: '"' :: rest => some (['"'], rest)
  | '"' :: '"' :: '"' :: rest => some ([], rest)
  | '\r' :: '\n' :: rest =>
    if skipping then longBasic true rest else put '\n' (longBasic false rest)
  | '\\' :: 'u' :: a :: b :: c :: d :: rest => do
    put (← scalar? (← hex? [a, b, c, d])) (longBasic false rest)
  | '\\' :: 'U' :: a :: b :: c :: d :: e :: f :: g :: h :: rest => do
    put (← scalar? (← hex? [a, b, c, d, e, f, g, h])) (longBasic false rest)
  | '\\' :: c :: rest =>
    if (newline? (skipGap (c :: rest))).isSome then longBasic true (c :: rest)
    else do put (← escape? c) (longBasic false rest)
  | c :: rest =>
    if c = '\n' ∨ isGap c then
      if skipping then longBasic true rest else put c (longBasic false rest)
    else if isPlain c then put c (longBasic false rest)
    else none
  | [] => none

/-- A string in three single quotes, after them. -/
def longLiteral : List Char → Option (List Char × List Char)
  | '\x27' :: '\x27' :: '\x27' :: '\x27' :: '\x27' :: rest => some (['\x27', '\x27'], rest)
  | '\x27' :: '\x27' :: '\x27' :: '\x27' :: rest => some (['\x27'], rest)
  | '\x27' :: '\x27' :: '\x27' :: rest => some ([], rest)
  | '\r' :: '\n' :: rest => put '\n' (longLiteral rest)
  | c :: rest => if c = '\n' ∨ isPlain c then put c (longLiteral rest) else none
  | [] => none

/-- The end of a line right after three quotes does not count. -/
def dropNewline (s : List Char) : List Char := (newline? s).getD s

/-- A string with its quotes. -/
def string? : List Char → Option (List Char × List Char)
  | '"' :: '"' :: '"' :: rest => longBasic false (dropNewline rest)
  | '\x27' :: '\x27' :: '\x27' :: rest => longLiteral (dropNewline rest)
  | '"' :: rest => basic rest
  | '\x27' :: rest => literal rest
  | _ => none

/-! ## Keys -/

def isBare (c : Char) : Bool := c.isAlphanum || c == '_' || c == '-'

/-- One name of a key, bare or in single-line quotes. -/
def name? (s : List Char) : Option (String × List Char) :=
  match s with
  | '"' :: rest => (basic rest).map fun (name, rest) => (String.ofList name, rest)
  | '\x27' :: rest => (literal rest).map fun (name, rest) => (String.ofList name, rest)
  | s =>
    let name := s.takeWhile isBare
    if name.isEmpty then none else some (String.ofList name, s.dropWhile isBare)

/-- The names of a key, with gaps around them. -/
def names? : (fuel : Nat) → List Char → Option (List String × List Char)
  | 0, _ => none
  | fuel + 1, s => do
    let (name, rest) ← name? (skipGap s)
    match skipGap rest with
    | '.' :: rest => (names? fuel rest).map fun (names, rest) => (name :: names, rest)
    | rest => some ([name], rest)

/-- How deep values, and how long keys, may be. -/
def depthLimit : Nat := 79

/-- A key: the names on the way and the last one. -/
def key? (s : List Char) : Option (List String × String × List Char) := do
  let (names, rest) ← names? (s.length + 1) s
  if names.length ≤ depthLimit then some (names.dropLast, ← names.getLast?, rest) else none

/-! ## Values -/

mutual

/-- A value that may be so many brackets deep. -/
def value : (fuel depth : Nat) → List Char → Option (Toml × List Char)
  | 0, _, _ => none
  | fuel + 1, depth, s => match s with
    | '[' :: rest =>
      if depth = 0 then none
      else (items fuel (depth - 1) rest).map fun (found, rest) => (.list found, rest)
    | '\x7b' :: rest =>
      if depth = 0 then none
      else match skipGap rest with
        | '\x7d' :: rest => some (.table .inline [], rest)
        | rest => do
          let (found, rest) ← fields fuel (depth - 1) rest
          some (← ofInline found, rest)
    | '"' :: _ | '\x27' :: _ => do
      let (contents, rest) ← string? s
      some (.text (String.ofList contents), rest)
    | s => Scalar.read? s

/-- The items of a list up to its bracket; a comma may follow the last. -/
def items : (fuel depth : Nat) → List Char → Option (List Toml × List Char)
  | 0, _, _ => none
  | fuel + 1, depth, s => match skipLines s.length s with
    | ']' :: rest => some ([], rest)
    | s => do
      let (first, rest) ← value fuel depth s
      match skipLines rest.length rest with
      | ',' :: rest => (items fuel depth rest).map fun (found, rest) => (first :: found, rest)
      | ']' :: rest => some ([first], rest)
      | _ => none

/-- The fields of a table in braces up to its brace, at least one. -/
def fields : (fuel depth : Nat) → List Char →
    Option (List (List String × String × Toml) × List Char)
  | 0, _, _ => none
  | fuel + 1, depth, s => do
    let (path, name, rest) ← key? s
    let '=' :: rest := rest | none
    let (found, rest) ← value fuel depth (skipGap rest)
    match skipGap rest with
    | ',' :: rest =>
      (fields fuel depth rest).map fun (more, rest) => ((path, name, found) :: more, rest)
    | '\x7d' :: rest => some ([(path, name, found)], rest)
    | _ => none

end

/-! ## Statements -/

/-- One statement and its line. -/
def statement? (s : List Char) : Option (Statement × List Char) :=
  match s with
  | '[' :: '[' :: rest => do
    let (path, name, rest) ← key? rest
    let ']' :: ']' :: rest := rest | none
    some (.repeated path name, ← lineEnd? rest)
  | '[' :: rest => do
    let (path, name, rest) ← key? rest
    let ']' :: rest := rest | none
    some (.header path name, ← lineEnd? rest)
  | s => do
    let (path, name, rest) ← key? s
    let '=' :: rest := rest | none
    let (found, rest) ← value (rest.length + 1) depthLimit (skipGap rest)
    some (.field path name found, ← lineEnd? rest)

/-- All statements of a text. -/
def statements : (fuel : Nat) → List Char → Option (List Statement)
  | 0, _ => none
  | fuel + 1, s => match skipLines s.length s with
    | [] => some []
    | s => do
      let (first, rest) ← statement? s
      some (first :: (← statements fuel rest))

end Reader

/-- Reads a document; a byte order mark before it is skipped. -/
def read (s : String) : Option Fields := do
  let all := (Chars.after? ['\uFEFF'] s.toList).getD s.toList
  ofStatements (← Reader.statements (all.length + 1) all)

end Toml

end RequestFlow

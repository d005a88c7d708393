/-
Reading JSON text. Each step takes characters off the front of the text and
fails with what was left when it could not go on.
-/
import RequestFlow.Json
import RequestFlow.Text.Pieces

namespace RequestFlow

namespace Json

/-- Where a text stops being JSON of the wanted shape. -/
structure Fault where
  line : Nat
  column : Nat
  deriving DecidableEq, Repr

def Fault.message (fault : Fault) : String :=
  "unexpected text at line " ++ toString fault.line ++ " column " ++ toString fault.column

/-- The position behind `read`. -/
def Fault.after (read : List Char) : Fault :=
  { line := read.count '\n' + 1
    column := (read.reverse.takeWhile (· ≠ '\n')).length }

/-- What is left of a text. Reading gives a value and the rest, or the rest at which it stopped. -/
abbrev Rest := List Char

namespace Reader

def isGap (c : Char) : Bool := c == ' ' || c == '\n' || c == '\r' || c == '\t'

def skipGap (s : List Char) : List Char := s.dropWhile isGap

/-! ## Strings -/

def hexDigit? (c : Char) : Option Nat :=
  if '0' ≤ c ∧ c ≤ '9' then some (c.toNat - '0'.toNat)
  else if 'a' ≤ c ∧ c ≤ 'f' then some (c.toNat - 'a'.toNat + 10)
  else if 'A' ≤ c ∧ c ≤ 'F' then some (c.toNat - 'A'.toNat + 10)
  else none

/-- A code unit of 16 bits in four digits. -/
def unit? (a b c d : Char) : Option Nat := do
  some ((((← hexDigit? a) * 16 + (← hexDigit? b)) * 16 + (← hexDigit? c)) * 16 + (← hexDigit? d))

def isHigh (unit : Nat) : Bool := 0xD800 ≤ unit && unit < 0xDC00

def isLow (unit : Nat) : Bool := 0xDC00 ≤ unit && unit < 0xE000

/-- The character of a surrogate pair. -/
def ofPair (high low : Nat) : Char :=
  Char.ofNat (0x10000 + (high - 0xD800) * 0x400 + (low - 0xDC00))

/-- The character that a backslash and a letter stand for. -/
def escape? : Char → Option Char
  | '"' => some '"'
  | '\\' => some '\\'
  | '/' => some '/'
  | 'b' => some '\x08'
  | 'f' => some '\x0c'
  | 'n' => some '\n'
  | 'r' => some '\r'
  | 't' => some '\t'
  | _ => none

/-- A piece of a string: a character, or a code unit given by its number. -/
inductive Piece where
  | char (c : Char)
  | unit (n : Nat)
  deriving DecidableEq, Repr

/-- Puts a piece before those read after it. -/
def put (piece : Piece) (read : Except Rest (List Piece × Rest)) :
    Except Rest (List Piece × Rest) :=
  read.map fun (pieces, rest) => (piece :: pieces, rest)

/-- The pieces of a string up to its closing quote. -/
def pieces : List Char → Except Rest (List Piece × Rest)
  | [] => .error []
  | '"' :: rest => .ok ([], rest)
  | '\\' :: 'u' :: a :: b :: c :: d :: rest => match unit? a b c d with
    | some n => put (.unit n) (pieces rest)
    | none => .error rest
  | '\\' :: c :: rest => match escape? c with
    | some c => put (.char c) (pieces rest)
    | none => .error rest
  | c :: rest => if c.toNat < 0x20 then .error rest else put (.char c) (pieces rest)

/-- The characters of the pieces; half a surrogate pair is none. -/
def join : List Piece → Option (List Char)
  | [] => some []
  | .char c :: rest => (join rest).map (c :: ·)
  | .unit high :: .unit low :: rest =>
    if isHigh high && isLow low then (join rest).map (ofPair high low :: ·)
    else if isHigh high || isLow high then none
    else (join (.unit low :: rest)).map (Char.ofNat high :: ·)
  | .unit n :: rest =>
    if isHigh n || isLow n then none else (join rest).map (Char.ofNat n :: ·)

/-- A string after its opening quote; none if it is garbled. -/
def string (s : List Char) : Except Rest (Option String × Rest) :=
  (pieces s).map fun (found, rest) => ((join found).map String.ofList, rest)

/-! ## Numbers -/

def isDigit (c : Char) : Bool := '0' ≤ c && c ≤ '9'

/-- One digit or more. -/
def digits (s : List Char) : Except Rest (List Char × Rest) :=
  let found := s.takeWhile isDigit
  if found.isEmpty then .error s else .ok (found, s.dropWhile isDigit)

/-- Digits without a superfluous zero in front. -/
def whole (s : List Char) : Except Rest (List Char × Rest) := do
  match ← digits s with
  | ('0' :: _ :: _, rest) => .error rest
  | found => .ok found

/-- A fraction, if there is one. -/
def fraction : List Char → Except Rest (List Char × Rest)
  | '.' :: rest => do
    let (found, rest) ← digits rest
    .ok ('.' :: found, rest)
  | s => .ok ([], s)

/-- An exponent, if there is one. -/
def exponent : List Char → Except Rest (List Char × Rest)
  | c :: rest =>
    if c = 'e' ∨ c = 'E' then do
      let (sign, rest) := match rest with
        | '+' :: rest => (['+'], rest)
        | '-' :: rest => (['-'], rest)
        | rest => ([], rest)
      let (found, rest) ← digits rest
      .ok (c :: sign ++ found, rest)
    else .ok ([], c :: rest)
  | [] => .ok ([], [])

/-- The number that digits stand for. -/
def ofDigits (found : List Char) : Nat :=
  found.foldl (fun value c => 10 * value + (c.toNat - '0'.toNat)) 0

def number (s : List Char) : Except Rest (Json × Rest) := do
  let (sign, s) := match s with
    | '-' :: rest => (['-'], rest)
    | s => ([], s)
  let (found, s) ← whole s
  let (part, s) ← fraction s
  let (power, s) ← exponent s
  let value := ofDigits found
  if part.isEmpty && power.isEmpty && (sign.isEmpty || value ≠ 0) then
    .ok (integer (if sign.isEmpty then value else -value), s)
  else .ok (decimal (String.ofList (sign ++ found ++ part ++ power)), s)

/-! ## Values -/

/-- The given word, then the value it stands for. -/
def word (rest : List Char) (value : Json) (s : List Char) : Except Rest (Json × Rest) :=
  match Chars.after? rest s with
  | some s => .ok (value, s)
  | none => .error s

/-- A key and its colon. -/
def key (s : List Char) : Except Rest (Option String × Rest) := do
  match skipGap s with
  | '"' :: rest => do
    let (name, rest) ← string rest
    match skipGap rest with
    | ':' :: rest => .ok (name, rest)
    | rest => .error rest
  | rest => .error rest

/-- An object of the fields, unless a key is garbled. -/
def objectOf (fields : List (Option String × Json)) : Json :=
  match fields.mapM fun (name, value) => name.map (·, value) with
  | some fields => object fields
  | none => garbled

mutual

def value : (fuel : Nat) → List Char → Except Rest (Json × Rest)
  | 0, s => .error s
  | fuel + 1, s => match skipGap s with
    | '"' :: rest => (string rest).map fun (found, rest) => (found.elim garbled text, rest)
    | '[' :: rest => match skipGap rest with
      | ']' :: rest => .ok (list [], rest)
      | rest => (items fuel rest).map fun (found, rest) => (list found, rest)
    | '\x7b' :: rest => match skipGap rest with
      | '\x7d' :: rest => .ok (object [], rest)
      | rest => (fields fuel rest).map fun (found, rest) => (objectOf found, rest)
    | 'n' :: rest => word ['u', 'l', 'l'] null rest
    | 't' :: rest => word ['r', 'u', 'e'] (flag true) rest
    | 'f' :: rest => word ['a', 'l', 's', 'e'] (flag false) rest
    | rest => number rest

/-- The items of a list up to its closing bracket, at least one. -/
def items : (fuel : Nat) → List Char → Except Rest (List Json × Rest)
  | 0, s => .error s
  | fuel + 1, s => do
    let (first, rest) ← value fuel s
    match skipGap rest with
    | ',' :: rest => (items fuel rest).map fun (found, rest) => (first :: found, rest)
    | ']' :: rest => .ok ([first], rest)
    | rest => .error rest

/-- The fields of an object up to its closing brace, at least one. -/
def fields : (fuel : Nat) → List Char → Except Rest (List (Option String × Json) × Rest)
  | 0, s => .error s
  | fuel + 1, s => do
    let (name, rest) ← key s
    let (first, rest) ← value fuel rest
    match skipGap rest with
    | ',' :: rest => (fields fuel rest).map fun (found, rest) => ((name, first) :: found, rest)
    | '\x7d' :: rest => .ok ([(name, first)], rest)
    | rest => .error rest

end

end Reader

/-- Reads a text that holds one value and nothing else but gaps. Each step takes a character, so
their number bounds the steps. -/
def read (s : String) : Except Fault Json :=
  let all := s.toList
  let fault (rest : List Char) := Fault.after (all.take (all.length - rest.length))
  match Reader.value (all.length + 1) all with
  | .ok (json, rest) =>
    if (Reader.skipGap rest).isEmpty then .ok json else .error (fault rest)
  | .error rest => .error (fault rest)

/-- Reads a text that holds one value of the wanted shape. A wrong shape is found at the end. -/
def readAs {α : Type} (shape? : Json → Option α) (s : String) : Except Fault α := do
  match shape? (← read s) with
  | some value => .ok value
  | none => .error (Fault.after s.toList)

end Json

end RequestFlow

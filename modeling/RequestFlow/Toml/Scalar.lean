/-
The scalars of TOML that are written without quotes: truth values, numbers,
dates and times.
-/
import RequestFlow.Toml

namespace RequestFlow

namespace Toml

namespace Scalar

def isDigit (c : Char) : Bool := '0' ≤ c && c ≤ '9'

/-- The value of a digit in a base up to sixteen. -/
def digit? (base : Nat) (c : Char) : Option Nat := do
  let value ←
    if '0' ≤ c ∧ c ≤ '9' then some (c.toNat - '0'.toNat)
    else if 'a' ≤ c ∧ c ≤ 'f' then some (c.toNat - 'a'.toNat + 10)
    else if 'A' ≤ c ∧ c ≤ 'F' then some (c.toNat - 'A'.toNat + 10)
    else none
  if value < base then some value else none

/-- Digits with single underscores between them, and their number added to `value`. -/
def digits? (base value : Nat) : List Char → Option Nat
  | [] => none
  | [c] => do some (value * base + (← digit? base c))
  | c :: '_' :: rest => do digits? base (value * base + (← digit? base c)) rest
  | c :: rest => do digits? base (value * base + (← digit? base c)) rest

/-- Digits without a superfluous zero in front. -/
def whole? : List Char → Option Nat
  | '0' :: _ :: _ => none
  | s => digits? 10 0 s

/-- The sign, as whether it is a minus, and what follows it. -/
def sign : List Char → Bool × List Char
  | '+' :: rest => (false, rest)
  | '-' :: rest => (true, rest)
  | s => (false, s)

/-- An integer of 64 bits. -/
def integer? (s : List Char) : Option Toml := do
  let value : Int ← match s with
    | '0' :: 'x' :: rest => (digits? 16 0 rest).map Int.ofNat
    | '0' :: 'o' :: rest => (digits? 8 0 rest).map Int.ofNat
    | '0' :: 'b' :: rest => (digits? 2 0 rest).map Int.ofNat
    | s =>
      let (isNegative, rest) := sign s
      (whole? rest).map fun n => if isNegative then -(n : Int) else n
  if -0x8000000000000000 ≤ value ∧ value < 0x8000000000000000 then some (.integer value) else none

/-! ## Floats -/

/-- The number of digits, without zeros in front. -/
def width (n : Nat) : Nat := if n = 0 then 0 else (toString n).length

/-- `mantissa * 10 ^ power / 10 ^ drop` is nearer to 2 ^ 1024 than to any number with 53 significant
bits below it. -/
def isInfinite (mantissa power drop : Nat) : Bool :=
  if mantissa = 0 then false
  else if 310 + drop < width mantissa + power then true
  else if width mantissa + power < 308 + drop then false
  else (1 <<< 1024 - 1 <<< 970) * Nat.pow 10 (drop - power)
    ≤ mantissa * Nat.pow 10 (power - drop)

/-- The exponent, as what to multiply by and what to divide by. -/
def exponent? (s : List Char) : Option (Nat × Nat) := do
  let (isNegative, rest) := sign s
  let n ← digits? 10 0 rest
  some (if isNegative then (0, n) else (n, 0))

/-- A number with a fraction, an exponent or both. One too large for a float is none. -/
def decimal? (s : List Char) : Option Toml := do
  let (isNegative, s) := sign s
  let mark := s.span (fun c => c ≠ 'e' && c ≠ 'E')
  let (power, drop) ← match mark.2 with
    | [] => some (0, 0)
    | _ :: rest => exponent? rest
  let (front, back) := mark.1.span (· ≠ '.')
  let head ← whole? front
  let (mantissa, places) ← match back with
    | [] => if mark.2.isEmpty then none else some (head, 0)
    | _ :: fraction => do
      let part ← digits? 10 0 fraction
      let places := (fraction.filter isDigit).length
      some (head * Nat.pow 10 places + part, places)
  if !isNegative && isInfinite mantissa power (drop + places) then none else some .float

def special? (s : List Char) : Option Toml :=
  if (sign s).2 = ['i', 'n', 'f'] ∨ (sign s).2 = ['n', 'a', 'n'] then some .float else none

/-! ## Dates and times -/

/-- Exactly two digits, up to a limit. -/
def pair? (limit : Nat) : List Char → Option (Nat × List Char)
  | a :: b :: rest => do
    let n := (← digit? 10 a) * 10 + (← digit? 10 b)
    if n ≤ limit then some (n, rest) else none
  | _ => none

def daysIn (year month : Nat) : Nat :=
  if month = 2 then
    if year % 4 = 0 ∧ (year % 100 ≠ 0 ∨ year % 400 = 0) then 29 else 28
  else if month = 4 ∨ month = 6 ∨ month = 9 ∨ month = 11 then 30
  else 31

/-- What follows a date. -/
def date? (s : List Char) : Option (List Char) := do
  let (century, s) ← pair? 99 s
  let (rest, s) ← pair? 99 s
  let '-' :: s := s | none
  let (month, s) ← pair? 12 s
  let '-' :: s := s | none
  let (day, s) ← pair? 31 s
  if 1 ≤ month ∧ 1 ≤ day ∧ day ≤ daysIn (century * 100 + rest) month then some s else none

/-- What follows a time. -/
def time? (s : List Char) : Option (List Char) := do
  let (_, s) ← pair? 23 s
  let ':' :: s := s | none
  let (_, s) ← pair? 59 s
  let ':' :: s := s | none
  let (_, s) ← pair? 60 s
  match s with
  | '.' :: rest => if (rest.takeWhile isDigit).isEmpty then none else some (rest.dropWhile isDigit)
  | s => some s

/-- What follows hours and minutes. -/
def shift? (s : List Char) : Option (List Char) := do
  let (_, s) ← pair? 23 s
  let ':' :: s := s | none
  let (_, s) ← pair? 59 s
  some s

/-- Nothing but a shift from universal time is left. -/
def isOffset : List Char → Bool
  | [] | ['Z'] | ['z'] => true
  | c :: rest => (c == '+' || c == '-') && shift? rest == some []

def moment? (s : List Char) : Option Toml :=
  match date? s with
  | some [] => some .moment
  | some (c :: rest) =>
    if c = 'T' ∨ c = 't' ∨ c = ' ' then
      if (time? rest).any isOffset then some .moment else none
    else none
  | none => if time? s = some [] then some .moment else none

/-- The scalar that a word stands for. -/
def ofWord? (word : List Char) : Option Toml :=
  if word = ['t', 'r', 'u', 'e'] then some (.flag true)
  else if word = ['f', 'a', 'l', 's', 'e'] then some (.flag false)
  else integer? word <|> decimal? word <|> special? word <|> moment? word

/-- A character of a word. -/
def isWordChar (c : Char) : Bool :=
  c.isAlphanum || c == '+' || c == '-' || c == '.' || c == '_' || c == ':'

/-- The scalar at the front of a text, and the rest. A date and a time may have a blank between
them. -/
def read? (s : List Char) : Option (Toml × List Char) := do
  let (word, rest) := s.span isWordChar
  match rest with
  | ' ' :: c :: more =>
    if isDigit c && (date? word == some []) then
      let (time, rest) := (c :: more).span isWordChar
      some (← moment? (word ++ ' ' :: time), rest)
    else some (← ofWord? word, rest)
  | rest => some (← ofWord? word, rest)

end Scalar

end Toml

end RequestFlow

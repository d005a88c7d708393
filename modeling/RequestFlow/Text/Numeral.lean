/-
Decimal numerals: reading an unsigned number of 64 bits with the reason why a
text is none, and writing a duration in seconds with one decimal.
-/

namespace RequestFlow

/-- Unsigned numbers read from text stay below this bound. -/
def wordBound : Nat := 0x10000000000000000

/-- Why a text is not an unsigned number. -/
inductive NumeralFault where
  | empty
  | invalidDigit
  | tooLarge
  deriving DecidableEq, Repr

def NumeralFault.message : NumeralFault → String
  | .empty => "cannot parse integer from empty string"
  | .invalidDigit => "invalid digit found in string"
  | .tooLarge => "number too large to fit in target type"

namespace Numeral

def digit? (c : Char) : Option Nat :=
  if '0' ≤ c ∧ c ≤ '9' then some (c.toNat - '0'.toNat) else none

/-- Adds digits to the number read so far; the first fault from the left is reported. -/
def readDigits : (value : Nat) → List Char → Except NumeralFault Nat
  | value, [] => .ok value
  | value, c :: s => match digit? c with
    | none => .error .invalidDigit
    | some d =>
      let next := 10 * value + d
      if next < wordBound then readDigits next s else .error .tooLarge

/-- Reads an unsigned number; one leading plus sign is allowed. -/
def read (s : List Char) : Except NumeralFault Nat :=
  match s with
  | [] => .error .empty
  | ['+'] => .error .invalidDigit
  | '+' :: rest => readDigits 0 rest
  | s => readDigits 0 s

end Numeral

/-! ## Seconds

An elapsed time is held as a binary floating-point number with 53 significant
bits before it is printed, so a printed half may go either way. -/

namespace Seconds

/-- The quotient rounded to the nearest whole number, a half to the even one. -/
def roundDiv (num den : Nat) : Nat :=
  let q := num / den
  let r := num % den
  if 2 * r < den ∨ (2 * r = den ∧ q % 2 = 0) then q else q + 1

/-- A non-negative number `num / den` with a positive denominator. -/
structure Ratio where
  num : Nat
  den : Nat

/-- The nearest number with 53 significant bits. -/
def Ratio.toBinary (x : Ratio) : Ratio :=
  if x.num = 0 then x
  else
    -- scaled by `2 ^ up / 2 ^ down`, the number has 53 or 54 bits before the point
    let up := 53 + x.den.log2 - x.num.log2
    let down := x.num.log2 - (53 + x.den.log2)
    let scaled := (x.num <<< up) / (x.den <<< down)
    let drop := scaled.log2 - 52
    let step := 1 <<< (down + drop)
    let mantissa := roundDiv (x.num <<< up) (x.den * step)
    ⟨mantissa * step, 1 <<< up⟩

def Ratio.add (x y : Ratio) : Ratio := ⟨x.num * y.den + y.num * x.den, x.den * y.den⟩

/-- Seconds of a time given in milliseconds, as a binary number. -/
def ofMillis (ms : Nat) : Ratio :=
  let whole := Ratio.toBinary ⟨ms / 1000, 1⟩
  let part := Ratio.toBinary ⟨ms % 1000, 1000⟩
  (whole.add part).toBinary

/-- The number with one decimal, a half going to the even neighbour. -/
def Ratio.oneDecimal (x : Ratio) : String :=
  let tenths := roundDiv (10 * x.num) x.den
  toString (tenths / 10) ++ "." ++ toString (tenths % 10)

end Seconds

end RequestFlow

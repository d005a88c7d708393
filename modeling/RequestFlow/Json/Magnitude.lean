/-
The size of a number as a float. The digits of a number are taken into a word as
long as they fit; a digit before the point that no longer fits only makes a
power of ten, and one behind the point does not count. Word and power are then
multiplied as floats.
-/
import RequestFlow.Text.Numeral

namespace RequestFlow

/-- The number `significand * 10 ^ power`. -/
structure Magnitude where
  significand : Nat := 0
  power : Int := 0
  deriving DecidableEq, Repr

namespace Magnitude

/-- Adds digits before the point. -/
def addWhole : Magnitude → List Char → Magnitude
  | x, [] => x
  | x, c :: rest =>
    let next := 10 * x.significand + (Numeral.digit? c).getD 0
    if next < wordBound then addWhole { x with significand := next } rest
    else { x with power := x.power + rest.length + 1 }

/-- Adds digits behind the point. -/
def addFraction : Magnitude → List Char → Magnitude
  | x, [] => x
  | x, c :: rest =>
    let next := 10 * x.significand + (Numeral.digit? c).getD 0
    if next < wordBound then addFraction ⟨next, x.power - 1⟩ rest else x

/-- The number that digits stand for. -/
def ofDigits (digits : List Char) : Nat :=
  digits.foldl (fun value c => 10 * value + (Numeral.digit? c).getD 0) 0

/-- The exponent that is written behind its letter. -/
def exponent : List Char → Int
  | '-' :: digits => -(ofDigits digits : Int)
  | '+' :: digits => ofDigits digits
  | digits => ofDigits digits

/-- The size of a number as it is written, without regard to its sign. -/
def ofText (s : List Char) : Magnitude :=
  let (mantissa, mark) := s.span (fun c => c ≠ 'e' && c ≠ 'E')
  let (whole, fraction) := (mantissa.dropWhile (· == '-')).span (· ≠ '.')
  let x := (addWhole {} whole).addFraction fraction.tail
  { x with power := x.power + exponent mark.tail }

/-- The nearest whole number with 53 significant bits, a half going to the even one. -/
def nearest (n : Nat) : Nat :=
  let step := 1 <<< (n.log2 - 52)
  Seconds.roundDiv n step * step

/-- The product of the two floats is a float and not infinite. -/
def isFinite (x : Magnitude) : Bool :=
  x.significand = 0 || x.power < 0 || (x.power ≤ 308 &&
    nearest x.significand * nearest (Nat.pow 10 x.power.toNat) < 1 <<< 1024 - 1 <<< 970)

end Magnitude

end RequestFlow

/-
Characters as bytes: a range of code points is written in sequences of byte
ranges, one range for each byte of the encoding, so that a text is in the range
exactly when its bytes are in one of the sequences.
-/
import RequestFlow.Text.CharSet

namespace RequestFlow

/-- Bytes from the first to the second. -/
abbrev ByteRange := Nat × Nat

namespace ByteRange

/-- The bytes of a code point. -/
def encode (n : Nat) : List Nat :=
  if n < 0x80 then [n]
  else if n < 0x800 then [0xC0 + n / 0x40, 0x80 + n % 0x40]
  else if n < 0x10000 then [0xE0 + n / 0x1000, 0x80 + n / 0x40 % 0x40, 0x80 + n % 0x40]
  else [0xF0 + n / 0x40000, 0x80 + n / 0x1000 % 0x40, 0x80 + n / 0x40 % 0x40, 0x80 + n % 0x40]

/-- Where a range that does not keep to blocks of this size is cut: behind its first block, or
before its last one. -/
def blockCut? (low high block : Nat) : Option Nat :=
  if low / block = high / block then none
  else if low % block ≠ 0 then some (low / block * block + (block - 1))
  else if high % block ≠ block - 1 then some (high / block * block - 1)
  else none

/-- The last code point of the first part of a range that one sequence cannot stand for. -/
def cut? (low high : Nat) : Option Nat :=
  let limits := [0xD7FF, 0xDFFF, 0x7F, 0x7FF, 0xFFFF]
  match limits.find? fun limit => low ≤ limit && limit < high with
  | some limit => some limit
  | none =>
    if high < 0x80 then none
    else [0x40, 0x1000, 0x40000].findSome? (blockCut? low high)

/-- The sequences for a range of code points, in ascending order. Halves of surrogate pairs are not
written. -/
def sequences (low high : Nat) : List (List ByteRange) :=
  match cut? low high with
  | some middle =>
    if _h : low ≤ middle ∧ middle < high then
      sequences low middle ++ sequences (middle + 1) high
    else []
  | none =>
    if 0xD800 ≤ low && low ≤ 0xDFFF then [] else [(encode low).zip (encode high)]
termination_by high - low

end ByteRange

end RequestFlow

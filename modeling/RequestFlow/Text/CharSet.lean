/-
Sets of characters, as a test and as a list of ranges of code points in
ascending order.
-/
import RequestFlow.Text.Blank
import RequestFlow.Text.Word

namespace RequestFlow

/-- A set of characters. -/
inductive CharSet where
  | one (c : Char)
  | range (low high : Char)
  | word
  | digit
  | blank
  | newline
  | none
  | union (a b : CharSet)
  | except (a : CharSet)
  deriving DecidableEq, Repr

def CharSet.contains : CharSet → Char → Bool
  | one c, x => x == c
  | range low high, x => low.toNat ≤ x.toNat && x.toNat ≤ high.toNat
  | word, x => isWord x
  | digit, x => isDecimal x
  | blank, x => isBlank x
  | newline, x => x == '\n'
  | none, _ => false
  | union a b, x => a.contains x || b.contains x
  | except a, x => !a.contains x

/-! ## Ranges -/

/-- Closed ranges of code points. Where they stand for a set they ascend, and neither overlap nor
touch. -/
abbrev CodeRanges := List (Nat × Nat)

namespace CodeRanges

/-- Two lists in ascending order as one. -/
def merge : CodeRanges → CodeRanges → CodeRanges
  | [], b => b
  | a, [] => a
  | (low, high) :: a, (low', high') :: b =>
    if low ≤ low' then (low, high) :: merge a ((low', high') :: b)
    else (low', high') :: merge ((low, high) :: a) b

/-- Joins a range with those after it that it overlaps or touches, and these in turn. -/
def joinFrom (low high : Nat) : CodeRanges → CodeRanges
  | [] => [(low, high)]
  | (low', high') :: rest =>
    if low' ≤ high + 1 then joinFrom low (max high high') rest
    else (low, high) :: joinFrom low' high' rest

def join : CodeRanges → CodeRanges
  | [] => []
  | (low, high) :: rest => joinFrom low high rest

/-- The code points from `next` on that are in no range. -/
def complementFrom (next : Nat) : CodeRanges → CodeRanges
  | [] => if next ≤ 0x10FFFF then [(next, 0x10FFFF)] else []
  | (low, high) :: rest =>
    if next < low then (next, low - 1) :: complementFrom (high + 1) rest
    else complementFrom (high + 1) rest

end CodeRanges

/-- The ranges of a set. -/
def CharSet.ranges : CharSet → CodeRanges
  | one c => [(c.toNat, c.toNat)]
  | range low high => [(low.toNat, high.toNat)]
  | word => [(0x30, 0x39), (0x41, 0x5A), (0x5F, 0x5F), (0x61, 0x7A)] ++ wordRanges.toList
  | digit => (0x30, 0x39) :: digitRanges.toList
  | blank => blankRanges
  | newline => [(0x0A, 0x0A)]
  | none => []
  | union a b => (a.ranges.merge b.ranges).join
  | except a => a.ranges.complementFrom 0

end RequestFlow

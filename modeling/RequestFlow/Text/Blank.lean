/-
White space as Unicode defines it, and trimming by it. Texts are read as lists
of characters (`Chars`); the functions of `Text` are the same ones on strings.
-/

namespace RequestFlow

/-- The code points with the Unicode property `White_Space`, as closed ranges. -/
def blankRanges : List (Nat × Nat) :=
  [(0x09, 0x0D), (0x20, 0x20), (0x85, 0x85), (0xA0, 0xA0), (0x1680, 0x1680), (0x2000, 0x200A),
   (0x2028, 0x2029), (0x202F, 0x202F), (0x205F, 0x205F), (0x3000, 0x3000)]

/-- White space; the zero-width characters and the byte order mark are not. -/
def isBlank (c : Char) : Bool :=
  blankRanges.any fun (low, high) => low ≤ c.toNat && c.toNat ≤ high

namespace Chars

/-- Drops the longest tail whose characters all satisfy `p`. -/
def dropTailWhile (p : Char → Bool) (s : List Char) : List Char :=
  (s.reverse.dropWhile p).reverse

def trimStart (s : List Char) : List Char := s.dropWhile isBlank

def trimEnd (s : List Char) : List Char := dropTailWhile isBlank s

def trim (s : List Char) : List Char := trimEnd (trimStart s)

/-- Drops every leading and trailing occurrence of `c`. -/
def trimChar (c : Char) (s : List Char) : List Char :=
  dropTailWhile (· == c) (s.dropWhile (· == c))

end Chars

namespace Text

def trim (s : String) : String := String.ofList (Chars.trim s.toList)

end Text

end RequestFlow

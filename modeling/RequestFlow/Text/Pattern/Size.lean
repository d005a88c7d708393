/-
The size of a pattern as an automaton over bytes. There are two of them: one
reads a text forwards, the other backwards from the end of a match. A pattern is
not accepted if one of them takes more than ten megabytes.

A state takes 32 bytes, and each way that leads out of a choice four more. In a
set of characters the sequences of bytes share the states of their beginnings.
What is shared is remembered in a table of a thousand slots, where a new entry
takes the place of an older one, so that a state may have to be made again.
-/
import RequestFlow.Text.ByteRange
import RequestFlow.Text.Pattern

namespace RequestFlow.Pattern

/-- An automaton so far: its states, and the bytes it takes besides. -/
structure Tally where
  states : Nat := 0
  extra : Nat := 0
  deriving DecidableEq, Repr

namespace Tally

def bytes (tally : Tally) : Nat := 32 * tally.states + tally.extra

def add (tally : Tally) (states extra : Nat) : Tally :=
  ⟨tally.states + states, tally.extra + extra⟩

def limit : Nat := 10 * 1024 * 1024

def isOver (tally : Tally) : Bool := limit < tally.bytes

end Tally

/-! ## Sets of characters -/

/-- The state that a byte range leads to another state from. -/
structure Link where
  target : Nat
  range : ByteRange
  state : Nat
  deriving DecidableEq, Repr

/-- The links that are remembered, each in its slot, and the number of the next state. -/
structure Links where
  slots : Array (Option Link) := Array.replicate 1000 none
  next : Nat

namespace Links

/-- The slot of a link, by mixing its parts one after the other. -/
def slot (target : Nat) (range : ByteRange) : Nat :=
  let mix (h : UInt64) (n : Nat) : UInt64 := (h ^^^ UInt64.ofNat n) * 1099511628211
  (mix (mix (mix 14695981039346656037 target) range.1) range.2).toNat % 1000

/-- The state that leads to `target`: one that is remembered, or a new one. -/
def link (links : Links) (target : Nat) (range : ByteRange) : Links × Nat :=
  let slot := slot target range
  match links.slots.getD slot none with
  | some known =>
    if known.target = target ∧ known.range = range then (links, known.state) else make slot
  | none => make slot
where
  make (slot : Nat) : Links × Nat :=
    (⟨links.slots.setIfInBounds slot (some ⟨target, range, links.next⟩), links.next + 1⟩,
      links.next)

/-- Adds the states of a sequence that ends in `target`. -/
def addSequence (links : Links) (target : Nat) (ranges : List ByteRange) : Links :=
  (ranges.foldl (fun (links, target) range => link links target range) (links, target)).1

end Links

namespace Tally

/-- Adds a choice between sequences of bytes. -/
def addSequences (tally : Tally) (sequences : List (List ByteRange)) : Tally :=
  let target := tally.states + 1
  let links : Links := sequences.foldl (fun links ranges => links.addSequence target ranges)
    { next := tally.states + 2 }
  ⟨links.next, tally.extra + 4 * sequences.length⟩

/-- Adds a set: one character is written as it is, and what has one byte each needs one state with
a way for each range. -/
def addSet (tally : Tally) (s : CharSet) : Tally :=
  let ranges := s.ranges
  match ranges with
  | [(low, high)] =>
    if low = high then tally.add (ByteRange.encode low).length 0 else addRanges ranges
  | ranges => addRanges ranges
where
  addRanges (ranges : CodeRanges) : Tally :=
    if ranges.all (·.2 < 0x80) then tally.add 2 (8 * ranges.length)
    else tally.addSequences (ranges.flatMap fun range => ByteRange.sequences range.1 range.2)

end Tally

/-! ## Patterns -/

/-- The pattern may match without taking a character. -/
def isNullable : Pattern → Bool
  | empty | start | stop | wordEdge | inWord | star _ => true
  | set _ => false
  | seq p q => p.isNullable && q.isNullable
  | alt p q => p.isNullable || q.isNullable
  | plus p => p.isNullable

/-- Adds a pattern, the end of it first. Once there are too many states, no more sets are added. -/
def measure : Pattern → Tally → Tally
  | set s, tally => if tally.isOver then tally else tally.addSet s
  | empty, tally | start, tally | stop, tally | wordEdge, tally | inWord, tally => tally.add 1 0
  | seq p q, tally => p.measure (q.measure tally)
  | alt p empty, tally => (p.measure tally).add 2 8
  | alt p (alt q r), tally => ((alt q r).measure (p.measure tally)).add 0 4
  | alt p q, tally => (q.measure (p.measure tally)).add 2 8
  | star p, tally =>
    if p.isNullable then (p.measure tally).add 3 16 else p.measure (tally.add 1 8)
  | plus p, tally => (p.measure tally).add 1 8

/-! ## Automata -/

/-- The way in which a text is read. -/
inductive Direction where
  | forwards
  | backwards
  deriving DecidableEq, Repr

/-- The pattern takes no character. -/
def isEdge : Pattern → Bool
  | empty | start | stop | wordEdge | inWord => true
  | set _ => false
  | seq p q | alt p q => p.isEdge && q.isEdge
  | star p | plus p => p.isEdge

/-- A match has to begin where the text does, or read backwards to end where it does. -/
def isAnchored : Direction → Pattern → Bool
  | .forwards, start | .backwards, stop => true
  | .forwards, seq p q => p.isAnchored .forwards || p.isEdge && q.isAnchored .forwards
  | .backwards, seq p q => q.isAnchored .backwards || q.isEdge && p.isAnchored .backwards
  | d, alt p q => p.isAnchored d && q.isAnchored d
  | d, plus p => p.isAnchored d
  | _, _ => false

/-- Sets of one character, or of characters of one byte, take the same states in both directions. -/
def isPlain : Pattern → Bool
  | set s => match s.ranges with
    | [(low, high)] => low == high || high < 0x80
    | ranges => ranges.all (·.2 < 0x80)
  | empty | start | stop | wordEdge | inWord => true
  | seq p q | alt p q => p.isPlain && q.isPlain
  | star p | plus p => p.isPlain

/-- What comes before a match: three states that skip characters, or one where none is skipped. -/
def Tally.initial (anchored : Bool) : Tally := if anchored then ⟨1, 0⟩ else ⟨3, 16⟩

/-- The states behind a pattern. Reading forwards, there is one where a match begins and one where it
ends before the last one. -/
def Direction.final : Direction → Nat
  | forwards => 3
  | backwards => 1

/-- The automaton of a search. -/
def automaton (d : Direction) (p : Pattern) : Tally :=
  (p.measure (.initial (p.isAnchored d))).add d.final 0

/-- The pattern is too large to be searched for. Other sets than plain ones take more states
backwards, so that this direction decides. -/
def isTooLarge (p : Pattern) : Bool :=
  (p.automaton .backwards).isOver || p.isPlain && (p.automaton .forwards).isOver

end RequestFlow.Pattern

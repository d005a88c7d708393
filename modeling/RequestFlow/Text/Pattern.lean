/-
Search patterns over text: sets of characters, anchors and word boundaries,
sequence, choice and repetition. A pattern is searched anywhere in a text; only
whether it occurs is asked, so matching takes the places of the text where a
match may start to those where it may end, all of them at once.
-/
import RequestFlow.Text.CharSet

namespace RequestFlow

inductive Pattern where
  | empty
  | set (s : CharSet)
  | start
  | stop
  /-- Between a word character and none, in either order. -/
  | wordEdge
  | inWord
  | seq (p q : Pattern)
  | alt (p q : Pattern)
  | star (p : Pattern)
  /-- Once or more often. -/
  | plus (p : Pattern)
  deriving DecidableEq, Repr

/-- A place in a text: its number, the character before it, if any, and what follows. -/
structure Place where
  index : Nat
  before : Option Char
  rest : List Char
  deriving DecidableEq, Repr

namespace Place

def atWordEdge (place : Place) : Bool :=
  place.before.any isWord != place.rest.head?.any isWord

/-- The place behind the next character, if that is in the set. -/
def next? (s : CharSet) (place : Place) : Option Place :=
  match place.rest with
  | c :: rest => if s.contains c then some ⟨place.index + 1, some c, rest⟩ else none
  | [] => none

end Place

/-- Places of one text in ascending order, each once. -/
abbrev Places := List Place

namespace Places

/-- All places of a text whose first one has this number. -/
def allFrom (index : Nat) (before : Option Char) : List Char → Places
  | [] => [⟨index, before, []⟩]
  | c :: rest => ⟨index, before, c :: rest⟩ :: allFrom (index + 1) (some c) rest

/-- All places of a text. -/
def all (text : String) : Places := allFrom 0 none text.toList

/-- The places in one list or the other. -/
def union : Places → Places → Places
  | [], b => b
  | a, [] => a
  | p :: a, q :: b =>
    if p.index < q.index then p :: union a (q :: b)
    else if q.index < p.index then q :: union (p :: a) b
    else p :: union a b

/-- The places in the first list that are not in the second. -/
def diff : Places → Places → Places
  | [], _ => []
  | a, [] => a
  | p :: a, q :: b =>
    if p.index < q.index then p :: diff a (q :: b)
    else if q.index < p.index then diff (p :: a) b
    else diff a b

/-- How many places of the text lie behind the first of these. -/
def room (places : Places) : Nat := (places.head?.map (·.rest.length)).getD 0

/-- The places reached from `frontier` in at most `fuel` rounds of `step`, with those already
`seen`. -/
def closure (step : Places → Places) : (fuel : Nat) → (frontier seen : Places) → Places
  | 0, _, seen => seen
  | fuel + 1, frontier, seen =>
    let next := diff (step frontier) seen
    if next.isEmpty then seen else closure step fuel next (union seen next)

/-- The places reached in any number of rounds. Each round but the last adds one, so their number
bounds the rounds. -/
def reachable (step : Places → Places) (places : Places) : Places :=
  closure step (places.room + 1) places places

end Places

namespace Pattern

/-- The places where a match from one of `places` may end. -/
def ends : Pattern → Places → Places
  | empty, places => places
  | set s, places => places.filterMap (·.next? s)
  | start, places => places.filter (·.before.isNone)
  | stop, places => places.filter (·.rest.isEmpty)
  | wordEdge, places => places.filter (·.atWordEdge)
  | inWord, places => places.filter (!·.atWordEdge)
  | seq p q, places => q.ends (p.ends places)
  | alt p q, places => (p.ends places).union (q.ends places)
  | star p, places => Places.reachable p.ends places
  | plus p, places => Places.reachable p.ends (p.ends places)

/-- The pattern matches somewhere in the text. -/
def occursIn (p : Pattern) (text : String) : Bool := !(p.ends (Places.all text)).isEmpty

/-! ## Shorthands -/

instance : HAppend Pattern Pattern Pattern := ⟨seq⟩

def literal : List Char → Pattern
  | [] => empty
  | [c] => set (.one c)
  | c :: rest => seq (set (.one c)) (literal rest)

def text (s : String) : Pattern := literal s.toList

def optional (p : Pattern) : Pattern := alt p empty

/-- One of several texts. -/
def anyOf : List String → Pattern
  | [] => set .none
  | [s] => text s
  | s :: rest => alt (text s) (anyOf rest)

/-- A pattern that neither starts nor ends inside a word. -/
def whole (p : Pattern) : Pattern := wordEdge ++ p ++ wordEdge

/-- A pattern that takes a text as a whole. -/
def entire (p : Pattern) : Pattern := start ++ p ++ stop

def blanks : Pattern := star (set .blank)

def wordChars : Pattern := star (set .word)

end Pattern

end RequestFlow

/-
Reading patterns from their usual notation: `\b`, `\w`, `\s`, `\d`, escaped
punctuation, groups, choice, character classes and the repetitions `*`, `+`
and `?`. Anything malformed, any construct outside this notation, and whatever
is nested too deep or grows too large is refused.
-/
import RequestFlow.Text.Pattern.Size

namespace RequestFlow.Pattern

/-- A set named by a letter after a backslash. -/
def namedSet? : Char → Option CharSet
  | 'w' => some .word
  | 'W' => some (.except .word)
  | 'd' => some .digit
  | 'D' => some (.except .digit)
  | 's' => some .blank
  | 'S' => some (.except .blank)
  | _ => none

/-- The character that an escape stands for. -/
def escaped? : Char → Option Char
  | 'a' => some '\x07'
  | 'f' => some '\x0c'
  | 'n' => some '\n'
  | 'r' => some '\r'
  | 't' => some '\t'
  | 'v' => some '\x0b'
  | c => if c.toNat < 0x80 && !c.isAlphanum && c != '<' && c != '>' then some c else none

/-! ## Character classes -/

/-- An item of a character class: one character, or a named set. -/
inductive ClassItem where
  | char (c : Char)
  | set (s : CharSet)

def ClassItem.toSet : ClassItem → CharSet
  | char c => .one c
  | set s => s

/-- One item of a class and what follows it. -/
def classItem? : List Char → Option (ClassItem × List Char)
  | [] => none
  | '\\' :: c :: rest => match namedSet? c with
    | some s => some (.set s, rest)
    | none => (escaped? c).map fun c => (.char c, rest)
  | '\\' :: [] => none
  | c :: rest => some (.char c, rest)

/-- An item, or a range of characters if a hyphen follows that is neither the last character of the
class nor doubled. -/
def classRange? (s : List Char) : Option (CharSet × List Char) := do
  let (first, rest) ← classItem? s
  match rest with
  | '-' :: ']' :: _ | '-' :: '-' :: _ => some (first.toSet, rest)
  | '-' :: rest => match first, ← classItem? rest with
    | .char low, (.char high, rest) =>
      if low.toNat ≤ high.toNat then some (.range low high, rest) else none
    | _, _ => none
  | rest => some (first.toSet, rest)

/-- The items of a class up to its closing bracket, in front of those already `read`. Classes inside
of classes, and operations on them, are refused. -/
def classItems? : (fuel : Nat) → (read : List CharSet) → List Char →
    Option (List CharSet × List Char)
  | 0, _, _ => none
  | fuel + 1, read, s => match s with
    | ']' :: rest => some (read, rest)
    | '[' :: _ | '&' :: '&' :: _ | '-' :: '-' :: _ | '~' :: '~' :: _ => none
    | s => do
      let (item, rest) ← classRange? s
      classItems? fuel (item :: read) rest

/-- What stands first in a class only for itself: hyphens, or else a closing bracket. -/
def classStart : List Char → List CharSet × List Char
  | ']' :: rest => ([.one ']'], rest)
  | s => ((s.takeWhile (· == '-')).map .one, s.dropWhile (· == '-'))

/-! ## Patterns -/

/-- What has been read of a pattern, and how deep it is nested. -/
structure Part where
  pattern : Pattern
  depth : Nat := 0
  deriving Repr

namespace Part

/-- The greatest depth of several parts. -/
def deepest (parts : List Part) : Nat := parts.foldl (fun depth part => max depth part.depth) 0

/-- Parts one after the other, the last one first. Nothing, and one part, need no level of their
own. -/
def sequence : List Part → Part
  | [] => { pattern := empty }
  | [part] => part
  | last :: parts =>
    { pattern := parts.foldl (fun p part => seq part.pattern p) last.pattern
      depth := deepest (last :: parts) + 1 }

/-- A choice of two; between sets of characters it is a set again. -/
def either : Pattern → Pattern → Pattern
  | set a, set b => set (.union a b)
  | p, q => alt p q

/-- A choice of parts, the last one first. -/
def choice : List Part → Part
  | [] => { pattern := empty }
  | [part] => part
  | last :: parts =>
    { pattern := parts.foldl (fun p part => either part.pattern p) last.pattern
      depth := deepest (last :: parts) + 1 }

/-- A class is a level, and the list of its items one more. -/
def ofClass (negated : Bool) (items : List CharSet) : Part :=
  let all := items.foldl .union .none
  { pattern := set (if negated then .except all else all)
    depth := if items.length < 2 then 1 else 2 }

/-- The part inside of something else. -/
def inside (part : Part) (wrap : Pattern → Pattern) : Part := ⟨wrap part.pattern, part.depth + 1⟩

end Part

/-- A class after its opening bracket. -/
def class? (s : List Char) : Option (Part × List Char) := do
  let (negated, s) := match s with
    | '^' :: rest => (true, rest)
    | s => (false, s)
  let (first, s) := classStart s
  let (items, rest) ← classItems? (s.length + 1) first s
  some (.ofClass negated items, rest)

/-- A part with the repetitions that follow it; a question mark after one only changes
preference. -/
def repeated : Part → List Char → Part × List Char
  | part, '*' :: '?' :: rest | part, '*' :: rest => repeated (part.inside star) rest
  | part, '+' :: '?' :: rest | part, '+' :: rest => repeated (part.inside plus) rest
  | part, '?' :: '?' :: rest | part, '?' :: rest => repeated (part.inside optional) rest
  | part, rest => (part, rest)

/-- One item that is no group, without its repetitions. -/
def item? : List Char → Option (Part × List Char)
  | '[' :: rest => class? rest
  | '^' :: rest => some ({ pattern := start }, rest)
  | '$' :: rest => some ({ pattern := stop }, rest)
  | '.' :: rest => some ({ pattern := set (.except .newline) }, rest)
  | '\\' :: 'A' :: rest => some ({ pattern := start }, rest)
  | '\\' :: 'z' :: rest => some ({ pattern := stop }, rest)
  | '\\' :: 'b' :: rest => some ({ pattern := wordEdge }, rest)
  | '\\' :: 'B' :: rest => some ({ pattern := inWord }, rest)
  | '\\' :: c :: rest => match namedSet? c with
    | some s => some ({ pattern := set s }, rest)
    | none => (escaped? c).map fun c => ({ pattern := set (.one c) }, rest)
  | '\\' :: [] | '*' :: _ | '+' :: _ | '?' :: _ | '\x7b' :: _ | [] => none
  | c :: rest => some ({ pattern := set (.one c) }, rest)

/-- How deep a pattern may be nested. -/
def depthLimit : Nat := 250

/-- What is read of the group at hand: the branches that are complete, and the parts of the one that
is not. Of both the last comes first. -/
structure Open where
  branches : List Part := []
  parts : List Part := []
  deriving Repr

namespace Open

def add (opened : Open) (part : Part) : Open := { opened with parts := part :: opened.parts }

def nextBranch (opened : Open) : Open := ⟨.sequence opened.parts :: opened.branches, []⟩

/-- The group as a whole. -/
def close (opened : Open) : Part := .choice opened.nextBranch.branches

end Open

/-- Reads on in the group at hand, which stands inside the groups `around` it. Each step takes a
character. -/
def readFrom : (fuel : Nat) → (around : List Open) → (opened : Open) → List Char → Option Part
  | 0, _, _, _ => none
  | fuel + 1, around, opened, s => match s with
    | [] => if around.isEmpty then some opened.close else none
    | '|' :: rest => readFrom fuel around opened.nextBranch rest
    | '(' :: '?' :: ':' :: rest => readFrom fuel (opened :: around) {} rest
    | '(' :: '?' :: _ => none
    | '(' :: rest => readFrom fuel (opened :: around) {} rest
    | ')' :: rest => match around with
      | [] => none
      | outer :: around =>
        let (part, rest) := repeated (opened.close.inside id) rest
        readFrom fuel around (outer.add part) rest
    | s => do
      let (part, rest) ← item? s
      let (part, rest) := repeated part rest
      readFrom fuel around (opened.add part) rest

/-- The pattern that a notation stands for. -/
def read? (source : String) : Option Pattern := do
  let s := source.toList
  let part ← readFrom (s.length + 1) [] {} s
  if part.depth ≤ depthLimit && !part.pattern.isTooLarge then some part.pattern else none

end RequestFlow.Pattern

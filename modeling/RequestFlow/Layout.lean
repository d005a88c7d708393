/-
Layout of code that contains function bodies: statements on lines of their own,
blocks indented. String literals are copied as they are, and parentheses and
braces outside them have to balance.
-/
import RequestFlow.Text.Blank
import RequestFlow.Text.Pattern

namespace RequestFlow.Layout

/-- Why a text cannot be laid out, with a byte offset. -/
inductive Fault where
  | unbalanced (bracket : Char) (offset : Nat)
  | unterminated (offset : Nat)
  deriving DecidableEq, Repr

def Fault.message : Fault → String
  | .unbalanced bracket offset =>
    "unbalanced '" ++ String.singleton bracket ++ "' at byte " ++ toString offset
  | .unterminated offset => "unterminated string literal starting at byte " ++ toString offset

/-- The text written so far, last character first, and how the next line starts. -/
structure Page where
  written : List Char := []
  depth : Nat := 0
  atLineStart : Bool := true
  deriving DecidableEq, Repr

namespace Page

def indent (depth : Nat) : List Char := List.replicate (4 * depth) ' '

/-- Ends the line: blanks at its end go, and an empty line is not ended again. -/
def newline (page : Page) : Page :=
  let written := page.written.dropWhile (· == ' ')
  let written := match written with
    | [] | '\n' :: _ => written
    | written => '\n' :: written
  { page with written, atLineStart := true }

/-- Writes a character; a line starts with its indentation and drops leading blanks. -/
def push (page : Page) (c : Char) : Page :=
  if page.atLineStart then
    if c = ' ' then page
    else { page with written := c :: (indent page.depth ++ page.written), atLineStart := false }
  else { page with written := c :: page.written }

end Page

/-- Where the scan stands: outside literals, inside one, or right after a backslash in one. A
literal remembers its quote and the offset of its start. -/
inductive Mode where
  | code
  | literal (quote : Char) (start : Nat)
  | escape (quote : Char) (start : Nat)
  deriving DecidableEq, Repr

structure Scan where
  page : Page := {}
  /-- Parentheses open here. -/
  parens : Nat := 0
  mode : Mode := .code
  offset : Nat := 0
  deriving DecidableEq, Repr

/-- Double quote, single quote and backtick. -/
def isQuote (c : Char) : Bool := c == '\x22' || c == '\x27' || c == '\x60'

/-- Characters that may follow a closing brace on its line. -/
def staysOnLine (c : Char) : Bool := c == ')' || c == ';' || c == ',' || c == ' '

/-- What a character outside literals does; `next` is the one after it. -/
def Scan.code (scan : Scan) (c : Char) (next : Option Char) : Except Fault Scan :=
  let page := scan.page
  if isQuote c then .ok { scan with page := page.push c, mode := .literal c scan.offset }
  else if c = '(' then .ok { scan with page := page.push c, parens := scan.parens + 1 }
  else if c = ')' then
    if scan.parens = 0 then .error (.unbalanced c scan.offset)
    else .ok { scan with page := page.push c, parens := scan.parens - 1 }
  else if c = '\x7b' then
    let page := page.push c
    let page := { page with depth := page.depth + 1 }
    .ok { scan with page := if next = some '\x7d' then page else page.newline }
  else if c = '\x7d' then
    if page.depth = 0 then .error (.unbalanced c scan.offset)
    else
      let page := { page with depth := page.depth - 1 }
      let page := if page.written.head? = some '\x7b' then page else page.newline
      let page := page.push c
      .ok { scan with page := if next.any (!staysOnLine ·) then page.newline else page }
  else if c = ';' ∧ scan.parens = 0 then .ok { scan with page := (page.push c).newline }
  else .ok { scan with page := page.push c }

/-- One character of the text. -/
def Scan.step (scan : Scan) (c : Char) (next : Option Char) : Except Fault Scan := do
  let scan ← match scan.mode with
    | .code => scan.code c next
    | .literal quote start =>
      let mode := if c = '\\' then .escape quote start else if c = quote then .code else scan.mode
      .ok { scan with page := scan.page.push c, mode }
    | .escape quote start =>
      .ok { scan with page := scan.page.push c, mode := .literal quote start }
  .ok { scan with offset := scan.offset + c.utf8Size }

def Scan.run : Scan → List Char → Except Fault Scan
  | scan, [] => .ok scan
  | scan, c :: rest => do (← scan.step c rest.head?).run rest

/-- At the end of the text every literal and every bracket is closed. -/
def Scan.finish (scan : Scan) : Except Fault (List Char) :=
  match scan.mode with
  | .literal _ start | .escape _ start => .error (.unterminated start)
  | .code =>
    if scan.page.depth ≠ 0 then .error (.unbalanced '\x7b' scan.offset)
    else if scan.parens ≠ 0 then .error (.unbalanced '(' scan.offset)
    else .ok (scan.page.written.dropWhile isBlank).reverse

/-- Lays out code as a list of characters. -/
def formatChars (code : List Char) : Except Fault (List Char) := do
  (← Scan.run {} code).finish

/-- Lays out code. -/
def format (code : String) : Except Fault String :=
  (formatChars code.toList).map String.ofList

/-- The head of a function: the keyword, perhaps a name, and an opening parenthesis. -/
def functionHead : Pattern :=
  Pattern.whole (.text "function") ++ Pattern.blanks ++ Pattern.wordChars ++ Pattern.blanks
    ++ Pattern.text "("

def mentionsFunction (code : String) : Bool := functionHead.occursIn code

/-- Lays out code that contains a function; other code, and code that is not balanced, stays. -/
def formatSlice (code : String) : String :=
  if mentionsFunction code then
    match format code with
    | .ok text => text
    | .error _ => code
  else code

end RequestFlow.Layout

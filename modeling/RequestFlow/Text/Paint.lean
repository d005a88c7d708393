/-
Terminal styles: codes before and after a text.
-/

namespace RequestFlow

/-- A style, as the numbers of its terminal codes. -/
structure Paint where
  codes : List String
  deriving DecidableEq, Repr

namespace Paint

def bold : Paint := ⟨["1"]⟩

def dimmed : Paint := ⟨["2"]⟩

def red : Paint := ⟨["31"]⟩

def yellow : Paint := ⟨["33"]⟩

def cyan : Paint := ⟨["36"]⟩

def boldRed : Paint := ⟨["1", "31"]⟩

def boldGreen : Paint := ⟨["1", "32"]⟩

def boldYellow : Paint := ⟨["1", "33"]⟩

def start (paint : Paint) : String := "\x1b[" ++ ";".intercalate paint.codes ++ "m"

/-- A style that ends inside a text is taken up again. -/
def resume (start : List Char) : List Char → List Char
  | [] => []
  | '\x1b' :: '[' :: '0' :: 'm' :: rest =>
    '\x1b' :: '[' :: '0' :: 'm' :: (start ++ resume start rest)
  | c :: rest => c :: resume start rest

/-- The text in a style, if styles are wanted. -/
def on (paint : Paint) (wanted : Bool) (text : String) : String :=
  if wanted then
    paint.start ++ String.ofList (resume paint.start.toList text.toList) ++ "\x1b[0m"
  else text

end Paint

end RequestFlow

/-
Code as a list of pieces: string literals, each a piece of its own, and the
characters outside them. A literal ends at the next occurrence of its quote that
no backslash escapes. Scanning a text for its layout goes through its pieces:
a literal is written as it is, and one without an end is a fault at its start.
-/
import Mathlib.Algebra.GroupWithZero.Nat
import RequestFlow.Layout

namespace RequestFlow.Layout

/-- A piece of code. -/
inductive Piece where
  | char (c : Char)
  | literal (quote : Char) (body : List Char)
  /-- A literal that the text ends in. -/
  | unclosed (quote : Char) (body : List Char)
  deriving DecidableEq, Repr

def Piece.text : Piece → List Char
  | char c => [c]
  | literal quote body => quote :: (body ++ [quote])
  | unclosed quote body => quote :: body

/-- The text that pieces make up. -/
def texts (pieces : List Piece) : List Char := pieces.flatMap Piece.text

/-- What a literal holds after its opening quote, and what follows its closing one. -/
def closeLiteral? (quote : Char) : List Char → Option (List Char × List Char)
  | [] => none
  | c :: rest =>
    if c = '\\' then
      match rest with
      | [] => none
      | escaped :: rest =>
        (closeLiteral? quote rest).map fun (body, after) => (c :: escaped :: body, after)
    else if c = quote then some ([], rest)
    else (closeLiteral? quote rest).map fun (body, after) => (c :: body, after)

/-- What a literal with this quote may hold. -/
inductive IsBody (quote : Char) : List Char → Prop
  | nil : IsBody quote []
  | escape (c : Char) {body : List Char} (hb : IsBody quote body) : IsBody quote ('\\' :: c :: body)
  | char {c : Char} {body : List Char} (hc : c ≠ '\\') (hq : c ≠ quote) (hb : IsBody quote body) :
    IsBody quote (c :: body)

variable {quote : Char} {s body after : List Char}

theorem ne_backslash (hq : isQuote quote = true) : quote ≠ '\\' := by
  rintro rfl
  cases hq

theorem closeLiteral?_cons {c : Char} (hc : c ≠ '\\') (s : List Char) :
    closeLiteral? quote (c :: s) =
      if c = quote then some ([], s)
      else (closeLiteral? quote s).map fun (body, after) => (c :: body, after) := by
  rw [closeLiteral?.eq_def]
  exact if_neg hc

theorem closeLiteral?_append (hq : isQuote quote = true) (hb : IsBody quote body)
    (after : List Char) : closeLiteral? quote (body ++ quote :: after) = some (body, after) := by
  induction hb with
  | nil => rw [List.nil_append, closeLiteral?_cons (ne_backslash hq), if_pos rfl]
  | escape c _ ih => simp [closeLiteral?, ih]
  | char hc hne _ ih => rw [List.cons_append, closeLiteral?_cons hc, if_neg hne, ih]; rfl

theorem of_closeLiteral? (h : closeLiteral? quote s = some (body, after)) :
    IsBody quote body ∧ s = body ++ quote :: after := by
  fun_induction closeLiteral? quote s generalizing body after with
  | case1 => cases h
  | case2 => cases h
  | case3 escaped rest ih =>
    obtain ⟨⟨body, after⟩, hrest, heq⟩ := Option.map_eq_some_iff.mp h
    cases heq
    obtain ⟨hb, rfl⟩ := ih hrest
    exact ⟨.escape _ hb, rfl⟩
  | case4 => cases h; exact ⟨.nil, rfl⟩
  | case5 c rest hc hq ih =>
    obtain ⟨⟨body, after⟩, hrest, heq⟩ := Option.map_eq_some_iff.mp h
    cases heq
    obtain ⟨hb, rfl⟩ := ih hrest
    exact ⟨.char hc hq hb, rfl⟩

/-- The pieces of a text, from left to right. -/
def pieces : List Char → List Piece
  | [] => []
  | c :: rest =>
    if isQuote c then
      match _h : closeLiteral? c rest with
      | some (body, after) => .literal c body :: pieces after
      | none => [.unclosed c rest]
    else .char c :: pieces rest
termination_by s => s.length
decreasing_by
  · have hrest := (of_closeLiteral? _h).2
    simp only [hrest, List.length_append, List.length_cons]
    omega
  · simp

@[simp] theorem pieces_nil : pieces [] = [] := by rw [pieces]

theorem pieces_char {c : Char} (hc : isQuote c = false) (s : List Char) :
    pieces (c :: s) = .char c :: pieces s := by
  rw [pieces, if_neg (by simp [hc])]

theorem pieces_literal (hq : isQuote quote = true)
    (h : closeLiteral? quote s = some (body, after)) :
    pieces (quote :: s) = .literal quote body :: pieces after := by
  rw [pieces, if_pos hq]
  split
  · next h' => rw [h] at h'; cases h'; rfl
  · next h' => rw [h] at h'; cases h'

@[simp] theorem texts_nil : texts [] = [] := rfl

@[simp] theorem texts_cons (piece : Piece) (ps : List Piece) :
    texts (piece :: ps) = piece.text ++ texts ps := List.flatMap_cons

@[simp] theorem texts_append (ps qs : List Piece) : texts (ps ++ qs) = texts ps ++ texts qs :=
  List.flatMap_append

/-- The pieces of a text make it up. -/
theorem texts_pieces (s : List Char) : texts (pieces s) = s := by
  fun_induction pieces s with
  | case1 => rfl
  | case2 c rest hq body after h ih =>
    rw [texts_cons, ih, (of_closeLiteral? h).2]
    simp [Piece.text]
  | case3 c rest hq h => simp [Piece.text]
  | case4 c rest hq ih => rw [texts_cons, ih]; rfl

/-! ## Texts in which every literal ends -/

/-- A character outside literals, or a literal with an end. -/
def Piece.Valid : Piece → Prop
  | char c => isQuote c = false
  | literal quote body => isQuote quote = true ∧ IsBody quote body
  | unclosed _ _ => False

def Piece.isClosed : Piece → Bool
  | unclosed _ _ => false
  | _ => true

theorem valid_of_isClosed {piece : Piece} (hm : piece ∈ pieces s) (hc : piece.isClosed = true) :
    piece.Valid := by
  fun_induction pieces s with
  | case1 => cases hm
  | case2 c rest hq body after h ih =>
    rcases List.mem_cons.mp hm with rfl | hm
    · exact ⟨hq, (of_closeLiteral? h).1⟩
    · exact ih hm
  | case3 c rest hq h =>
    obtain rfl := List.mem_singleton.mp hm
    cases hc
  | case4 c rest hq ih =>
    rcases List.mem_cons.mp hm with rfl | hm
    · exact (Bool.not_eq_true _).mp hq
    · exact ih hm

/-- Pieces with an end are found again, whatever follows them. -/
theorem pieces_texts_append {ps : List Piece} (hv : ∀ piece ∈ ps, piece.Valid) (s : List Char) :
    pieces (texts ps ++ s) = ps ++ pieces s := by
  induction ps with
  | nil => rfl
  | cons piece ps ih =>
    obtain ⟨hp, hps⟩ := List.forall_mem_cons.mp hv
    rw [texts_cons, List.append_assoc]
    cases piece with
    | char c =>
      rw [Piece.text, List.singleton_append, pieces_char hp, ih hps, List.cons_append]
    | literal quote body =>
      have hclose := closeLiteral?_append hp.1 hp.2 (texts ps ++ s)
      rw [Piece.text, List.cons_append, List.append_assoc, List.singleton_append,
        pieces_literal hp.1 hclose, ih hps, List.cons_append]
    | unclosed => exact hp.elim

theorem pieces_texts {ps : List Piece} (hv : ∀ piece ∈ ps, piece.Valid) :
    pieces (texts ps) = ps := by
  have h := pieces_texts_append hv []
  rwa [List.append_nil, pieces_nil, List.append_nil] at h

/-- A text in which every literal ends has no influence on the pieces of what follows it. -/
theorem pieces_append (hc : ∀ piece ∈ pieces s, piece.isClosed = true) (t : List Char) :
    pieces (s ++ t) = pieces s ++ pieces t := by
  have h := pieces_texts_append (fun piece hm => valid_of_isClosed hm (hc piece hm)) t
  rwa [texts_pieces] at h

/-! ## Scanning piece by piece -/

/-- The number of bytes of a text. -/
def byteSize (s : List Char) : Nat := (s.map Char.utf8Size).sum

@[simp] theorem byteSize_nil : byteSize [] = 0 := rfl

@[simp] theorem byteSize_cons (c : Char) (s : List Char) :
    byteSize (c :: s) = c.utf8Size + byteSize s := by simp [byteSize]

@[simp] theorem byteSize_append (s t : List Char) :
    byteSize (s ++ t) = byteSize s + byteSize t := by simp [byteSize]

theorem byteSize_toList (s : String) : byteSize s.toList = s.utf8ByteSize := by
  have hlist : ∀ l : List Char, byteSize l = (String.ofList l).utf8ByteSize := by
    intro l
    induction l with
    | nil => rfl
    | cons c l ih =>
      rw [byteSize_cons, ih, ← String.utf8ByteSize_singleton, ← String.utf8ByteSize_append]
      congr 1
      simp
  rw [hlist, String.ofList_toList]

/-- Writes one character after the other. -/
def Page.pushAll (page : Page) (s : List Char) : Page := s.foldl Page.push page

@[simp] theorem Page.pushAll_nil (page : Page) : page.pushAll [] = page := rfl

@[simp] theorem Page.pushAll_cons (page : Page) (c : Char) (s : List Char) :
    page.pushAll (c :: s) = (page.push c).pushAll s := rfl

namespace Scan

variable {scan : Scan} {start : Nat}

/-- Outside literals a character does what `Scan.code` says. -/
theorem run_code (hm : scan.mode = .code) (c : Char) (rest : List Char) :
    scan.run (c :: rest) = (scan.code c rest.head?).bind fun next =>
      run { next with offset := next.offset + c.utf8Size } rest := by
  rw [run, step, hm]
  cases scan.code c rest.head? <;> rfl

/-- In a literal every character is written. -/
theorem run_literal (hm : scan.mode = .literal quote start) (c : Char) (rest : List Char) :
    scan.run (c :: rest) = run { scan with
      page := scan.page.push c
      mode := if c = '\\' then .escape quote start else if c = quote then .code
        else .literal quote start
      offset := scan.offset + c.utf8Size } rest := by
  rw [run, step, hm]
  rfl

theorem run_escape (hm : scan.mode = .escape quote start) (c : Char) (rest : List Char) :
    scan.run (c :: rest) = run { scan with
      page := scan.page.push c
      mode := .literal quote start
      offset := scan.offset + c.utf8Size } rest := by
  rw [run, step, hm]
  rfl

/-- A literal is written as it is. -/
theorem run_body (hm : scan.mode = .literal quote start) (hq : isQuote quote = true)
    (hb : IsBody quote body) :
    scan.run (body ++ quote :: after) = run { scan with
      page := scan.page.pushAll (body ++ [quote])
      mode := .code
      offset := scan.offset + byteSize (body ++ [quote]) } after := by
  induction hb generalizing scan with
  | nil =>
    rw [List.nil_append, run_literal hm, if_neg (ne_backslash hq), if_pos rfl]
    simp
  | escape c _ ih =>
    rw [List.cons_append, List.cons_append, run_literal hm, if_pos rfl, run_escape rfl, ih rfl]
    simp [Nat.add_assoc]
  | char hc hne _ ih =>
    rw [List.cons_append, run_literal hm, if_neg hc, if_neg hne, ih rfl]
    simp [Nat.add_assoc]

/-- A literal without an end is read to the end of the text. -/
theorem run_unended (hm : scan.mode = .literal quote start) (h : closeLiteral? quote s = none) :
    scan.run s >>= finish = .error (.unterminated start) := by
  fun_induction closeLiteral? quote s generalizing scan with
  | case1 =>
    change scan.finish = _
    rw [finish, hm]
  | case2 =>
    rw [run_literal hm, if_pos rfl]
    rfl
  | case3 escaped rest ih =>
    rw [run_literal hm, if_pos rfl, run_escape rfl]
    exact ih rfl (Option.map_eq_none_iff.mp h)
  | case4 => cases h
  | case5 c rest hc hq ih =>
    rw [run_literal hm, if_neg hc, if_neg hq]
    exact ih rfl (Option.map_eq_none_iff.mp h)

theorem code_quote (hq : isQuote quote = true) (next : Option Char) :
    scan.code quote next =
      .ok { scan with page := scan.page.push quote, mode := .literal quote scan.offset } := by
  rw [code, if_pos hq]

/-- A literal is one piece: it is written as it is. -/
theorem run_closed (hm : scan.mode = .code) (hq : isQuote quote = true)
    (h : closeLiteral? quote s = some (body, after)) :
    scan.run (quote :: s) = run { scan with
      page := scan.page.pushAll (Piece.literal quote body).text
      offset := scan.offset + byteSize (Piece.literal quote body).text } after := by
  obtain ⟨hb, rfl⟩ := of_closeLiteral? h
  rw [run_code hm, code_quote hq, Except.bind, run_body rfl hq hb]
  simp [Piece.text, hm, Nat.add_assoc]

theorem run_unclosed (hm : scan.mode = .code) (hq : isQuote quote = true)
    (h : closeLiteral? quote s = none) :
    scan.run (quote :: s) >>= finish = .error (.unterminated scan.offset) := by
  rw [run_code hm, code_quote hq, Except.bind]
  exact run_unended rfl h

end Scan

end RequestFlow.Layout

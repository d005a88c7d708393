/-
Layout changes blanks only. Whatever is written, indented, ended as a line or
trimmed, the page shows the same pieces of code in the same order, blanks outside
literals apart: a literal starts and ends with its quote, so no blank of it is
ever at the end of what is written.
-/
import RequestFlow.Proofs.Layout.Balance

namespace RequestFlow.Layout

/-- A literal, or a character that is no blank. -/
def Piece.isSolid : Piece → Bool
  | char c => !isBlank c
  | _ => true

/-- The text of a literal, with its quotes. -/
def Piece.literal? : Piece → Option (List Char)
  | char _ => none
  | piece => some piece.text

def solids (s : List Char) : List Piece := (pieces s).filter Piece.isSolid

/-- The literals of a text, as they stand in it. -/
def literals (s : List Char) : List (List Char) := (pieces s).filterMap Piece.literal?

/-- A text without the blanks outside its literals. -/
def squeeze (s : List Char) : List Char := texts (solids s)

/-- The texts have the same literals, and differ only in blanks outside them. -/
structure SameButBlanks (s t : String) : Prop where
  literals : literals s.toList = literals t.toList
  squeeze : squeeze s.toList = squeeze t.toList

theorem literals_eq (s : List Char) : literals s = (solids s).filterMap Piece.literal? := by
  have hsolid : ∀ piece : Piece,
      (if piece.isSolid = true then piece.literal? else none) = piece.literal? := by
    intro piece
    cases piece with
    | char c => exact ite_self _
    | _ => rfl
  rw [solids, List.filterMap_filter, funext hsolid, literals]

theorem isBlank_of_isQuote {c : Char} (hq : isQuote c = true) : isBlank c = false := by
  simp only [isQuote, Bool.or_eq_true, beq_iff_eq] at hq
  rcases hq with (rfl | rfl) | rfl <;> rfl

theorem filter_blank {c : Char} (hc : isBlank c = true) :
    [Piece.char c].filter Piece.isSolid = [] := by
  simp [Piece.isSolid, hc]

/-! ## What a page shows -/

/-- What is written, last character first, are these pieces with blanks among them. -/
inductive Shows : List Char → List Piece → Prop
  | nil : Shows [] []
  | blank {c : Char} {written : List Char} {ps : List Piece} (hc : isBlank c = true)
    (h : Shows written ps) : Shows (c :: written) ps
  | solid {piece : Piece} {written : List Char} {ps : List Piece} (hv : piece.Valid)
    (hs : piece.isSolid = true) (h : Shows written ps) :
    Shows (piece.text.reverse ++ written) (ps ++ [piece])

namespace Shows

variable {written : List Char} {ps : List Piece}

theorem char (h : Shows written ps) {c : Char} (hq : isQuote c = false) :
    Shows (c :: written) (ps ++ [Piece.char c].filter Piece.isSolid) := by
  cases hb : isBlank c with
  | true =>
    rw [filter_blank hb, List.append_nil]
    exact h.blank hb
  | false =>
    have hs : (Piece.char c).isSolid = true := by simp [Piece.isSolid, hb]
    rw [List.filter_cons_of_pos hs]
    exact @solid (.char c) _ _ hq hs h

theorem indent (h : Shows written ps) (depth : Nat) : Shows (Page.indent depth ++ written) ps := by
  unfold Page.indent
  induction 4 * depth with
  | zero => exact h
  | succ n ih => exact ih.blank rfl

/-- The last character of a piece that is no blank is no blank either. -/
theorem exists_last {piece : Piece} (hv : piece.Valid) (hs : piece.isSolid = true) :
    ∃ c more, piece.text.reverse = c :: more ∧ isBlank c = false := by
  cases piece with
  | char c => exact ⟨c, [], rfl, by simpa [Piece.isSolid] using hs⟩
  | literal quote body =>
    exact ⟨quote, (quote :: body).reverse, by simp [Piece.text], isBlank_of_isQuote hv.1⟩
  | unclosed => exact hv.elim

/-- Dropping blanks from the end drops no piece. -/
theorem dropWhile (h : Shows written ps) {p : Char → Bool}
    (hp : ∀ c, p c = true → isBlank c = true) : Shows (written.dropWhile p) ps := by
  induction h with
  | nil => exact nil
  | @blank c written ps hc h ih =>
    rw [List.dropWhile_cons]
    split
    · exact ih
    · exact h.blank hc
  | @solid piece written ps hv hs h ih =>
    obtain ⟨c, more, ht, hc⟩ := exists_last hv hs
    have hkeep : ¬ p c = true := fun hpc => by
      rw [hp c hpc] at hc
      cases hc
    have hsame : (piece.text.reverse ++ written).dropWhile p = piece.text.reverse ++ written := by
      rw [ht, List.cons_append, List.dropWhile_cons_of_neg hkeep]
    rw [hsame]
    exact h.solid hv hs

/-- The pieces shown are those of the text, blanks apart. -/
theorem solids_eq (h : Shows written ps) : solids written.reverse = ps := by
  have hpieces : ∃ qs : List Piece, (∀ piece ∈ qs, piece.Valid) ∧ written.reverse = texts qs ∧
      qs.filter Piece.isSolid = ps := by
    induction h with
    | nil => exact ⟨[], by simp, rfl, rfl⟩
    | @blank c written ps hc h ih =>
      obtain ⟨qs, hv, hw, rfl⟩ := ih
      have hp : (Piece.char c).Valid := by
        cases hq : isQuote c with
        | false => exact hq
        | true => rw [isBlank_of_isQuote hq] at hc; cases hc
      refine ⟨qs ++ [.char c], ?_, ?_, ?_⟩
      · exact List.forall_mem_append.mpr ⟨hv, List.forall_mem_singleton.mpr hp⟩
      · rw [List.reverse_cons, hw, texts_append]
        rfl
      · rw [List.filter_append, filter_blank hc, List.append_nil]
    | @solid piece written ps hp hs h ih =>
      obtain ⟨qs, hv, hw, rfl⟩ := ih
      refine ⟨qs ++ [piece], ?_, ?_, ?_⟩
      · exact List.forall_mem_append.mpr ⟨hv, List.forall_mem_singleton.mpr hp⟩
      · simp [hw]
      · rw [List.filter_append, List.filter_cons_of_pos hs]
        rfl
  obtain ⟨qs, hv, hw, rfl⟩ := hpieces
  rw [solids, hw, pieces_texts hv]

end Shows

namespace Page

variable {page : Page} {ps : List Piece}

theorem shows_newline (h : Shows page.written ps) : Shows page.newline.written ps := by
  have hdrop : Shows (page.written.dropWhile (· == ' ')) ps :=
    h.dropWhile fun c hc => by rw [beq_iff_eq.mp hc]; rfl
  unfold newline
  dsimp only
  split
  · exact hdrop
  · exact hdrop
  · exact hdrop.blank rfl

/-- At the start of a line a character comes after the indentation, and blanks are dropped. -/
theorem shows_push (h : Shows page.written ps) {c : Char} (hq : isQuote c = false) :
    Shows (page.push c).written (ps ++ [Piece.char c].filter Piece.isSolid) := by
  unfold push
  split
  · split
    · next hc =>
      subst hc
      rwa [filter_blank rfl, List.append_nil]
    · exact (h.indent page.depth).char hq
  · exact h.char hq

theorem shows_put (h : Shows page.written ps) {c : Char} (hq : isQuote c = false)
    (ahead behind : Bool) :
    Shows (page.put c ahead behind).written (ps ++ [Piece.char c].filter Piece.isSolid) := by
  have hline : ∀ {page : Page} {ps : List Piece} (b : Bool), Shows page.written ps →
      Shows (if b then page.newline else page).written ps := by
    intro page ps b h
    cases b
    · exact h
    · exact shows_newline h
  exact hline behind (shows_push (hline ahead h) hq)

theorem written_pushAll (hp : page.atLineStart = false) (s : List Char) :
    (page.pushAll s).written = s.reverse ++ page.written := by
  induction s generalizing page with
  | nil => rfl
  | cons c s ih =>
    have hpush : page.push c = { page with written := c :: page.written } := by
      rw [push, if_neg (by simp [hp])]
    have hrest := @ih { page with written := c :: page.written } hp
    rw [pushAll_cons, hpush, hrest, List.reverse_cons, List.append_assoc]
    rfl

/-- A literal is written whole, and its quote is no blank. -/
theorem shows_literal (h : Shows page.written ps) {quote : Char} {body : List Char}
    (hv : (Piece.literal quote body).Valid) :
    Shows (page.pushAll (Piece.literal quote body).text).written (ps ++ [.literal quote body]) := by
  have hne : quote ≠ ' ' := by
    rintro rfl
    cases hv.1
  obtain ⟨before, hb, hw, hp⟩ : ∃ before, Shows before ps ∧
      (page.push quote).written = quote :: before ∧ (page.push quote).atLineStart = false := by
    cases hp : page.atLineStart with
    | true => exact ⟨_, h.indent page.depth, by simp [push, hp, hne], by simp [push, hp, hne]⟩
    | false => exact ⟨_, h, by simp [push, hp], by simp [push, hp]⟩
  have hwritten : (page.pushAll (Piece.literal quote body).text).written =
      (Piece.literal quote body).text.reverse ++ before := by
    rw [Piece.text, pushAll_cons, written_pushAll hp, hw]
    simp
  rw [hwritten]
  exact hb.solid hv rfl

end Page

/-! ## Scanning -/

/-- What is laid out shows the pieces of the text after those that the page showed before. -/
theorem Scan.solids_of_finish {scan : Scan} {s t : List Char} {ps : List Piece}
    (hm : scan.mode = .code) (hs : Shows scan.page.written ps)
    (h : scan.run s >>= finish = .ok t) :
    solids t = ps ++ (pieces s).filter Piece.isSolid := by
  fun_induction pieces s generalizing scan ps with
  | case1 =>
    change scan.finish = _ at h
    simp only [finish, hm] at h
    split at h
    · cases h
    · split at h
      · cases h
      · cases h
        rw [(hs.dropWhile fun c hc => hc).solids_eq, List.filter_nil, List.append_nil]
  | case2 c rest hq body after hclose ih =>
    have hv : (Piece.literal c body).Valid := ⟨hq, (of_closeLiteral? hclose).1⟩
    have hshows := Page.shows_literal hs hv
    rw [run_closed hm hq hclose] at h
    refine (ih ?_ hshows h).trans ?_
    · exact hm
    · rw [List.append_assoc]
      rfl
  | case3 c rest hq hclose =>
    rw [run_unclosed hm hq hclose] at h
    cases h
  | case4 c rest hq ih =>
    have hq : isQuote c = false := (Bool.not_eq_true _).mp hq
    rw [run_code hm] at h
    rcases scan.code_cases hq rest.head? with ⟨-, hcode⟩ | ⟨_, depth, ahead, behind, -, hcode⟩
    · rw [hcode] at h
      cases h
    · rw [hcode] at h
      have hshows := @Page.shows_put { scan.page with depth } ps hs c hq ahead behind
      refine (ih ?_ hshows h).trans ?_
      · exact hm
      · rw [List.append_assoc, ← List.filter_append]
        rfl

theorem solids_formatChars {s t : List Char} (h : formatChars s = .ok t) : solids t = solids s :=
  @Scan.solids_of_finish {} s t [] rfl .nil h

theorem sameButBlanks_of_format {s t : String} (h : format s = .ok t) : SameButBlanks s t := by
  cases hchars : formatChars s.toList with
  | error fault => rw [format, hchars] at h; cases h
  | ok chars =>
    rw [format, hchars] at h
    cases h
    have hsolid := solids_formatChars hchars
    refine ⟨?_, ?_⟩
    · rw [String.toList_ofList, literals_eq, literals_eq, hsolid]
    · rw [String.toList_ofList, squeeze, squeeze, hsolid]

/-- Layout keeps the literals of a text, and all else but its blanks; a slice is laid out or stays
as it is. -/
theorem format_blanks (s : String) :
    (∀ t, format s = .ok t → SameButBlanks s t) ∧
      (formatSlice s = s ∨ ∃ t, format s = .ok t ∧ formatSlice s = t ∧ SameButBlanks s t) := by
  refine ⟨fun t => sameButBlanks_of_format, ?_⟩
  unfold formatSlice
  split
  · cases h : format s with
    | ok t => exact .inr ⟨t, rfl, rfl, sameButBlanks_of_format h⟩
    | error fault => exact .inl rfl
  · exact .inl rfl

/-- The blanks, the quote and the bracket inside the literal stay as they are. -/
theorem format_blanks_quoted :
    format "f = function() \x7b g(  '\\' \x7d  ') ; \x7d" =
        .ok "f = function() \x7b\n    g(  '\\' \x7d  ') ;\n\x7d" ∧
      SameButBlanks "f = function() \x7b g(  '\\' \x7d  ') ; \x7d"
        "f = function() \x7b\n    g(  '\\' \x7d  ') ;\n\x7d" := by
  have h : format "f = function() \x7b g(  '\\' \x7d  ') ; \x7d" =
      .ok "f = function() \x7b\n    g(  '\\' \x7d  ') ;\n\x7d" := by
    decide +kernel
  exact ⟨h, (format_blanks _).1 _ h⟩

end RequestFlow.Layout

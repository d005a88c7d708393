/-
When code can be laid out: every literal ends, no bracket closes what is not
open, and at the end nothing is open. Otherwise the fault is the first one in
the text, with the number of bytes before it: a literal without an end at its
opening quote, a closing bracket at itself. Brackets that are left open count
at the end of the text, and braces before parentheses.
-/
import Mathlib.Data.List.Induction
import RequestFlow.Proofs.Layout.Pieces

namespace RequestFlow.Layout

inductive Bracket where
  | paren
  | brace
  deriving DecidableEq, Repr

namespace Bracket

def opening : Bracket → Char
  | paren => '('
  | brace => '\x7b'

def closing : Bracket → Char
  | paren => ')'
  | brace => '\x7d'

/-- How many brackets of this kind the pieces open. -/
def opens (bracket : Bracket) (ps : List Piece) : Nat := ps.count (.char bracket.opening)

def closes (bracket : Bracket) (ps : List Piece) : Nat := ps.count (.char bracket.closing)

theorem opens_append (bracket : Bracket) (ps qs : List Piece) :
    bracket.opens (ps ++ qs) = bracket.opens ps + bracket.opens qs := List.count_append

theorem closes_append (bracket : Bracket) (ps qs : List Piece) :
    bracket.closes (ps ++ qs) = bracket.closes ps + bracket.closes qs := List.count_append

theorem forall_iff {P : Bracket → Prop} : (∀ bracket, P bracket) ↔ P .paren ∧ P .brace :=
  ⟨fun h => ⟨h _, h _⟩, fun h bracket => by cases bracket; exacts [h.1, h.2]⟩

end Bracket

/-- Every literal ends, and no beginning of the text closes more brackets than it opens. -/
structure Sound (ps : List Piece) : Prop where
  closed : ∀ piece ∈ ps, piece.isClosed = true
  nested : ∀ (bracket : Bracket) (before : List Piece), before <+: ps →
    bracket.closes before ≤ bracket.opens before

/-- At the end no bracket is open. -/
structure Balanced (ps : List Piece) : Prop extends Sound ps where
  even : ∀ bracket : Bracket, bracket.closes ps = bracket.opens ps

/-- Why a text is not balanced, by the first fault in it. -/
inductive Rejects (s : String) : Fault → Prop
  | unterminated {before after : List Piece} {quote : Char} {body : List Char}
    (hs : pieces s.toList = before ++ .unclosed quote body :: after) (hb : Sound before) :
    Rejects s (.unterminated (byteSize (texts before)))
  | closing {before after : List Piece} (bracket : Bracket)
    (hs : pieces s.toList = before ++ .char bracket.closing :: after) (hb : Sound before)
    (hc : bracket.closes before = bracket.opens before) :
    Rejects s (.unbalanced bracket.closing (byteSize (texts before)))
  | openBrace (hs : Sound (pieces s.toList))
    (hb : Bracket.brace.closes (pieces s.toList) < Bracket.brace.opens (pieces s.toList)) :
    Rejects s (.unbalanced Bracket.brace.opening s.utf8ByteSize)
  | openParen (hs : Sound (pieces s.toList))
    (hb : Bracket.brace.closes (pieces s.toList) = Bracket.brace.opens (pieces s.toList))
    (hp : Bracket.paren.closes (pieces s.toList) < Bracket.paren.opens (pieces s.toList)) :
    Rejects s (.unbalanced Bracket.paren.opening s.utf8ByteSize)

/-! ## Levels -/

/-- How many brackets of each kind are open. -/
structure Level where
  parens : Nat := 0
  braces : Nat := 0
  deriving DecidableEq, Repr

namespace Level

/-- The level behind a piece, if the piece can stand at this level. -/
def take? (level : Level) : Piece → Option Level
  | .unclosed _ _ => none
  | .literal _ _ => some level
  | .char c =>
    if c = '(' then some { level with parens := level.parens + 1 }
    else if c = ')' then
      if level.parens = 0 then none else some { level with parens := level.parens - 1 }
    else if c = '\x7b' then some { level with braces := level.braces + 1 }
    else if c = '\x7d' then
      if level.braces = 0 then none else some { level with braces := level.braces - 1 }
    else some level

/-- The level behind some pieces. -/
def takeAll? : Level → List Piece → Option Level
  | level, [] => some level
  | level, piece :: ps => (level.take? piece).bind (·.takeAll? ps)

def depth (level : Level) : Bracket → Nat
  | .paren => level.parens
  | .brace => level.braces

variable {level level' : Level} {piece : Piece} {ps qs : List Piece}

theorem takeAll?_append : level.takeAll? (ps ++ qs) = (level.takeAll? ps).bind (·.takeAll? qs) := by
  induction ps generalizing level with
  | nil => rfl
  | cons piece ps ih =>
    rw [List.cons_append, takeAll?, takeAll?]
    cases level.take? piece with
    | none => rfl
    | some next => exact ih

theorem takeAll?_singleton : level.takeAll? [piece] = level.take? piece := by
  rw [takeAll?]
  cases level.take? piece <;> rfl

/-- A piece adds what it opens and takes away what it closes. -/
theorem take?_eq_some_iff : level.take? piece = some level' ↔ piece.isClosed = true ∧
    ∀ bracket : Bracket, level'.depth bracket + bracket.closes [piece] =
      level.depth bracket + bracket.opens [piece] := by
  obtain ⟨p, b⟩ := level
  obtain ⟨p', b'⟩ := level'
  rw [Bracket.forall_iff]
  cases piece with
  | unclosed => simp [take?, Piece.isClosed]
  | literal =>
    simp [take?, Piece.isClosed, depth, Bracket.closes, Bracket.opens]
    omega
  | char c =>
    simp only [take?, Piece.isClosed, depth, Bracket.closes, Bracket.opens, Bracket.closing,
      Bracket.opening, List.count_singleton, beq_iff_eq, Piece.char.injEq]
    split
    · next h => subst h; simp; omega
    · split
      · next h => subst h; simp; omega
      · split
        · next h => subst h; simp; omega
        · split
          · next h => subst h; simp; omega
          · simp [*]; omega

theorem sound_concat : Sound (ps ++ [piece]) ↔ Sound ps ∧ piece.isClosed = true ∧
    ∀ bracket : Bracket, bracket.closes (ps ++ [piece]) ≤ bracket.opens (ps ++ [piece]) := by
  constructor
  · intro h
    refine ⟨⟨fun p hp => h.closed p (List.mem_append_left _ hp), fun bracket before hb => ?_⟩,
      h.closed piece (by simp), fun bracket => h.nested bracket _ List.prefix_rfl⟩
    exact h.nested bracket before (hb.trans (List.prefix_append _ _))
  · rintro ⟨h, hp, hn⟩
    refine ⟨fun p hm => ?_, fun bracket before hb => ?_⟩
    · rcases List.mem_append.mp hm with hm | hm
      · exact h.closed p hm
      · rwa [List.mem_singleton.mp hm]
    · rcases List.prefix_concat_iff.mp hb with rfl | hb
      · exact hn bracket
      · exact h.nested bracket before hb

theorem exists_level (hs : Sound ps) : ∃ level : Level, ∀ bracket : Bracket,
    level.depth bracket + bracket.closes ps = bracket.opens ps := by
  have hle := fun bracket => hs.nested bracket ps List.prefix_rfl
  refine ⟨⟨Bracket.paren.opens ps - Bracket.paren.closes ps,
    Bracket.brace.opens ps - Bracket.brace.closes ps⟩, Bracket.forall_iff.mpr ⟨?_, ?_⟩⟩
  · exact Nat.sub_add_cancel (hle .paren)
  · exact Nat.sub_add_cancel (hle .brace)

/-- Going through the pieces succeeds exactly if they are sound, and leads to what is left open. -/
theorem takeAll?_eq_some_iff : takeAll? {} ps = some level ↔
    Sound ps ∧ ∀ bracket : Bracket, level.depth bracket + bracket.closes ps = bracket.opens ps := by
  induction ps using List.reverseRecOn generalizing level with
  | nil =>
    rw [takeAll?, Option.some_inj]
    constructor
    · rintro rfl
      refine ⟨⟨by simp, fun bracket before hb => ?_⟩, Bracket.forall_iff.mpr ⟨rfl, rfl⟩⟩
      rw [List.prefix_nil.mp hb]
      exact Nat.le_refl _
    · rintro ⟨-, h⟩
      obtain ⟨p, b⟩ := level
      have hp : p = 0 := h .paren
      have hb : b = 0 := h .brace
      rw [hp, hb]
  | append_singleton ps piece ih =>
    rw [takeAll?_append, Option.bind_eq_some_iff, sound_concat]
    simp only [takeAll?_singleton, take?_eq_some_iff, ih, Bracket.closes_append,
      Bracket.opens_append]
    constructor
    · rintro ⟨middle, ⟨hs, hm⟩, hc, hl⟩
      have hlevel : ∀ bracket : Bracket, level.depth bracket +
          (bracket.closes ps + bracket.closes [piece]) =
            bracket.opens ps + bracket.opens [piece] := fun bracket => by
        have := hm bracket
        have := hl bracket
        omega
      exact ⟨⟨hs, hc, fun bracket => hlevel bracket ▸ Nat.le_add_left _ _⟩, hlevel⟩
    · rintro ⟨⟨hs, hc, hn⟩, hl⟩
      obtain ⟨middle, hm⟩ := exists_level hs
      refine ⟨middle, ⟨hs, hm⟩, hc, fun bracket => ?_⟩
      have := hm bracket
      have := hl bracket
      omega

theorem exists_takeAll? (hs : Sound ps) : ∃ level, takeAll? {} ps = some level :=
  (exists_level hs).imp fun _ h => takeAll?_eq_some_iff.mpr ⟨hs, h⟩

theorem sound_of_takeAll? (h : takeAll? {} ps = some level) : Sound ps :=
  (takeAll?_eq_some_iff.mp h).1

/-- Pieces that are not sound have a first one that cannot stand where it does. -/
theorem exists_first (hs : ¬ Sound ps) : ∃ before piece after level,
    ps = before ++ piece :: after ∧ takeAll? {} before = some level ∧ level.take? piece = none := by
  induction ps using List.reverseRecOn with
  | nil => exact absurd (sound_of_takeAll? rfl) hs
  | append_singleton ps piece ih =>
    by_cases hps : Sound ps
    · obtain ⟨level, hl⟩ := exists_takeAll? hps
      refine ⟨ps, piece, [], level, rfl, hl, ?_⟩
      rw [← takeAll?_singleton, Option.eq_none_iff_forall_ne_some]
      intro next hp
      have hnext : takeAll? {} (ps ++ [piece]) = some next := by
        rw [takeAll?_append, hl, Option.bind_some, hp]
      exact hs (sound_of_takeAll? hnext)
    · obtain ⟨before, first, after, level, rfl, hl, hp⟩ := ih hps
      exact ⟨before, first, after ++ [piece], level, by simp, hl, hp⟩

end Level

/-! ## Scanning at a level -/

namespace Page

variable {page : Page}

@[simp] theorem depth_push (page : Page) (c : Char) : (page.push c).depth = page.depth := by
  unfold push
  split
  · split <;> rfl
  · rfl

@[simp] theorem depth_newline (page : Page) : page.newline.depth = page.depth := rfl

@[simp] theorem depth_pushAll (page : Page) (s : List Char) :
    (page.pushAll s).depth = page.depth := by
  induction s generalizing page with
  | nil => rfl
  | cons c s ih => rw [pushAll_cons, ih, depth_push]

/-- Writes a character, perhaps on a line of its own or as the last of its line. -/
def put (page : Page) (c : Char) (ahead behind : Bool) : Page :=
  let page := if ahead then page.newline else page
  let page := page.push c
  if behind then page.newline else page

@[simp] theorem depth_put (page : Page) (c : Char) (ahead behind : Bool) :
    (page.put c ahead behind).depth = page.depth := by
  cases ahead <;> cases behind <;> simp [put]

theorem with_depth {depth : Nat} (h : page.depth = depth) : { page with depth } = page := by
  rw [← h]

end Page

namespace Scan

variable {scan : Scan}

def level (scan : Scan) : Level := ⟨scan.parens, scan.page.depth⟩

/-- What a character outside literals does: it is a fault where its bracket is not open, and else
it is written, with or without line ends around it, and leads to the next level. -/
theorem code_cases {c : Char} (hc : isQuote c = false) (next : Option Char) :
    (scan.level.take? (.char c) = none ∧ scan.code c next = .error (.unbalanced c scan.offset)) ∨
    ∃ level depth ahead behind, scan.level.take? (.char c) = some level ∧
      scan.code c next = .ok { scan with
        page := { Page.put { scan.page with depth } c ahead behind with depth := level.braces }
        parens := level.parens } := by
  by_cases hopen : c = '('
  · subst hopen
    refine .inr ⟨_, scan.page.depth, false, false, rfl, ?_⟩
    rw [Page.with_depth (by simp [level])]
    rfl
  by_cases hclose : c = ')'
  · subst hclose
    by_cases hp : scan.parens = 0
    · exact .inl ⟨if_pos hp, if_pos hp⟩
    · refine .inr ⟨_, scan.page.depth, false, false, if_neg hp, ?_⟩
      rw [Page.with_depth (by simp [level])]
      exact if_neg hp
  by_cases hbegin : c = '\x7b'
  · subst hbegin
    refine .inr ⟨⟨scan.parens, (scan.page.push '\x7b').depth + 1⟩, scan.page.depth, false,
      next != some '\x7d', by rw [Page.depth_push]; rfl, ?_⟩
    by_cases hn : next = some '\x7d'
    · subst hn; rfl
    · rw [bne_iff_ne.mpr hn]
      change Except.ok { scan with page := if next = some '\x7d' then _ else _ } = _
      rw [if_neg hn]
      rfl
  by_cases hend : c = '\x7d'
  · subst hend
    by_cases hb : scan.page.depth = 0
    · exact .inl ⟨if_pos hb, if_pos hb⟩
    · refine .inr ⟨_, scan.page.depth - 1, scan.page.written.head? != some '\x7b',
        next.any (!staysOnLine ·), if_neg hb, ?_⟩
      rw [Page.with_depth (by simp [level]), Page.put]
      simp only [bne_iff_ne, ne_eq, ite_not]
      exact if_neg hb
  refine .inr ⟨scan.level, scan.page.depth, false, c = ';' ∧ scan.parens = 0, ?_, ?_⟩
  · simp [Level.take?, *]
  · rw [Page.with_depth (by simp [level]), Page.put, code, if_neg (by simp [hc]), if_neg hopen,
      if_neg hclose, if_neg hbegin, if_neg hend]
    by_cases hs : c = ';' ∧ scan.parens = 0
    · simp [hs, level]
    · simp [hs, level]

/-- Pieces that can stand at this level lead to the next one, whatever follows them. -/
theorem run_texts {ps : List Piece} {level : Level} (hm : scan.mode = .code)
    (hv : ∀ piece ∈ ps, piece.Valid) (h : scan.level.takeAll? ps = some level) (s : List Char) :
    ∃ page : Page, page.depth = level.braces ∧
      scan.run (texts ps ++ s) =
        run ⟨page, level.parens, .code, scan.offset + byteSize (texts ps)⟩ s := by
  induction ps generalizing scan with
  | nil =>
    cases h
    exact ⟨scan.page, rfl, by rw [← hm]; rfl⟩
  | cons piece ps ih =>
    obtain ⟨hp, hps⟩ := List.forall_mem_cons.mp hv
    obtain ⟨middle, hpiece, hrest⟩ := Option.bind_eq_some_iff.mp h
    rw [texts_cons, List.append_assoc, byteSize_append, ← Nat.add_assoc]
    cases piece with
    | char c =>
      rcases scan.code_cases hp (texts ps ++ s).head? with
        ⟨hnone, -⟩ | ⟨_, depth, ahead, behind, hsome, hcode⟩
      · rw [hpiece] at hnone
        cases hnone
      · rw [hpiece] at hsome
        cases hsome
        rw [Piece.text, List.singleton_append, run_code hm, hcode, Except.bind]
        exact ih hm hps hrest
    | literal quote body =>
      cases hpiece
      have hclose := closeLiteral?_append hp.1 hp.2 (texts ps ++ s)
      have hscan := run_closed hm hp.1 hclose
      rw [Piece.text, List.cons_append, List.append_assoc, List.singleton_append, hscan]
      refine ih hm hps ?_
      rwa [Scan.level, Page.depth_pushAll]
    | unclosed => exact hp.elim

/-- A text that starts with a literal without an end has this fault. -/
theorem run_of_unclosed {s body : List Char} {quote : Char} {after : List Piece}
    (hm : scan.mode = .code) (hs : pieces s = .unclosed quote body :: after) :
    scan.run s >>= finish = .error (.unterminated scan.offset) := by
  cases s with
  | nil => rw [pieces_nil] at hs; cases hs
  | cons c rest =>
    cases hq : isQuote c with
    | false => rw [pieces_char hq] at hs; cases hs
    | true =>
      cases hclose : closeLiteral? c rest with
      | none => exact run_unclosed hm hq hclose
      | some parts => rw [pieces_literal hq hclose] at hs; cases hs

/-- A text that starts with a bracket that closes nothing has this fault. -/
theorem run_of_closing {s : List Char} {c : Char} {after : List Piece} (hm : scan.mode = .code)
    (hs : pieces s = .char c :: after) (h : scan.level.take? (.char c) = none) :
    scan.run s >>= finish = .error (.unbalanced c scan.offset) := by
  have hm' : Piece.char c ∈ pieces s := hs ▸ List.mem_cons_self
  have hc : isQuote c = false := valid_of_isClosed hm' rfl
  obtain rfl : s = c :: texts after := by rw [← texts_pieces s, hs]; rfl
  rcases scan.code_cases hc (texts after).head? with ⟨-, hcode⟩ | ⟨_, _, _, _, hsome, -⟩
  · rw [run_code hm, hcode]
    rfl
  · rw [h] at hsome
    cases hsome

end Scan

/-! ## Verdicts -/

theorem Level.take?_closing {level : Level} {bracket : Bracket} (h : level.depth bracket = 0) :
    level.take? (.char bracket.closing) = none := by
  cases bracket <;> exact if_pos h

/-- Only a literal without an end and a bracket that closes nothing are at fault. -/
theorem Level.of_take?_eq_none {level : Level} {piece : Piece} (h : level.take? piece = none) :
    (∃ quote body, piece = .unclosed quote body) ∨
      ∃ bracket : Bracket, piece = .char bracket.closing ∧ level.depth bracket = 0 := by
  cases piece with
  | unclosed quote body => exact .inl ⟨quote, body, rfl⟩
  | literal => cases h
  | char c =>
    right
    simp only [take?] at h
    split at h
    · cases h
    · split at h
      · next hc =>
        split at h
        · next hp => exact ⟨.paren, by rw [hc]; rfl, hp⟩
        · cases h
      · split at h
        · cases h
        · split at h
          · next hc =>
            split at h
            · next hb => exact ⟨.brace, by rw [hc]; rfl, hb⟩
            · cases h
          · cases h

variable {s : String}

/-- Scanning goes through a sound beginning of a text to what it leaves open. -/
theorem formatChars_of_sound {before after : List Piece}
    (hs : pieces s.toList = before ++ after) (hb : Sound before) :
    ∃ (page : Page) (level : Level), page.depth = level.braces ∧
      (∀ bracket : Bracket, level.depth bracket + bracket.closes before = bracket.opens before) ∧
      pieces (texts after) = after ∧
      formatChars s.toList =
        (Scan.run ⟨page, level.parens, .code, byteSize (texts before)⟩ (texts after) >>=
          Scan.finish) := by
  obtain ⟨level, hl⟩ := Level.exists_takeAll? hb
  have hv : ∀ piece ∈ before, piece.Valid := fun piece hm =>
    valid_of_isClosed (hs ▸ List.mem_append_left _ hm) (hb.closed piece hm)
  obtain ⟨page, hdepth, hrun⟩ := @Scan.run_texts {} before level rfl hv hl (texts after)
  have htext : s.toList = texts before ++ texts after := by rw [← texts_append, ← hs, texts_pieces]
  refine ⟨page, level, hdepth, (Level.takeAll?_eq_some_iff.mp hl).2, ?_, ?_⟩
  · have h := pieces_texts_append hv (texts after)
    rw [← htext, hs] at h
    exact (List.append_cancel_left h).symm
  · rw [formatChars, htext, hrun, Nat.zero_add]

/-- Of a sound text it only matters what is open at its end. -/
theorem formatChars_eq_finish (hs : Sound (pieces s.toList)) :
    ∃ (page : Page) (level : Level), page.depth = level.braces ∧
      (∀ bracket : Bracket, level.depth bracket + bracket.closes (pieces s.toList) =
        bracket.opens (pieces s.toList)) ∧
      formatChars s.toList = Scan.finish ⟨page, level.parens, .code, s.utf8ByteSize⟩ := by
  obtain ⟨page, level, hdepth, hlevel, -, hformat⟩ :=
    formatChars_of_sound (List.append_nil _).symm hs
  rw [texts_pieces, byteSize_toList] at hformat
  exact ⟨page, level, hdepth, hlevel, hformat⟩

theorem format_of_balanced (hb : Balanced (pieces s.toList)) : ∃ text, format s = .ok text := by
  obtain ⟨page, level, hdepth, hlevel, hformat⟩ := formatChars_eq_finish hb.toSound
  have hzero : ∀ bracket, level.depth bracket = 0 := fun bracket => by
    have := hlevel bracket
    have := hb.even bracket
    omega
  have hparens : level.parens = 0 := hzero .paren
  have hbraces : page.depth = 0 := hdepth.trans (hzero .brace)
  rw [format, hformat, Scan.finish]
  simp [hparens, hbraces, Except.map]

theorem format_of_rejects {fault : Fault} (h : Rejects s fault) : format s = .error fault := by
  have hmap : ∀ {fault}, formatChars s.toList = .error fault → format s = .error fault :=
    fun h => by rw [format, h]; rfl
  apply hmap
  cases h with
  | unterminated hs hb =>
    obtain ⟨page, level, -, -, hafter, hformat⟩ := formatChars_of_sound hs hb
    rw [hformat]
    exact Scan.run_of_unclosed rfl hafter
  | closing bracket hs hb hc =>
    obtain ⟨page, level, hdepth, hlevel, hafter, hformat⟩ := formatChars_of_sound hs hb
    have hzero : level.depth bracket = 0 := by
      have := hlevel bracket
      omega
    rw [hformat]
    refine Scan.run_of_closing rfl hafter ?_
    rw [Scan.level, hdepth]
    exact Level.take?_closing hzero
  | openBrace hs hb =>
    obtain ⟨page, level, hdepth, hlevel, hformat⟩ := formatChars_eq_finish hs
    have hopen : page.depth ≠ 0 := by
      have : level.braces + _ = _ := hlevel .brace
      omega
    rw [hformat, Scan.finish]
    exact if_pos hopen
  | openParen hs hb hp =>
    obtain ⟨page, level, hdepth, hlevel, hformat⟩ := formatChars_eq_finish hs
    have hclosed : ¬ page.depth ≠ 0 := by
      have : level.braces + _ = _ := hlevel .brace
      omega
    have hopen : level.parens ≠ 0 := by
      have : level.parens + _ = _ := hlevel .paren
      omega
    rw [hformat, Scan.finish]
    exact (if_neg hclosed).trans (if_pos hopen)

theorem exists_rejects (h : ¬ Balanced (pieces s.toList)) : ∃ fault, Rejects s fault := by
  by_cases hs : Sound (pieces s.toList)
  · have hle := fun bracket => hs.nested bracket _ List.prefix_rfl
    by_cases hb : Bracket.brace.closes (pieces s.toList) = Bracket.brace.opens (pieces s.toList)
    · refine ⟨_, .openParen hs hb (Nat.lt_of_le_of_ne (hle .paren) fun hp => ?_)⟩
      exact h ⟨hs, Bracket.forall_iff.mpr ⟨hp, hb⟩⟩
    · exact ⟨_, .openBrace hs (Nat.lt_of_le_of_ne (hle .brace) hb)⟩
  · obtain ⟨before, piece, after, level, hps, hl, hp⟩ := Level.exists_first hs
    obtain ⟨hb, hlevel⟩ := Level.takeAll?_eq_some_iff.mp hl
    rcases Level.of_take?_eq_none hp with ⟨quote, body, rfl⟩ | ⟨bracket, rfl, hzero⟩
    · exact ⟨_, .unterminated hps hb⟩
    · refine ⟨_, .closing bracket hps hb ?_⟩
      have := hlevel bracket
      omega

/-- Code is laid out exactly if it is balanced, and else refused for the first fault in it. -/
theorem format_verdict (s : String) :
    ((∃ text, format s = .ok text) ↔ Balanced (pieces s.toList)) ∧
      ∀ fault, format s = .error fault ↔ Rejects s fault := by
  have hexcluded : ∀ {fault}, format s = .error fault → ¬ Balanced (pieces s.toList) := by
    intro fault hfault hb
    obtain ⟨text, hok⟩ := format_of_balanced hb
    rw [hfault] at hok
    cases hok
  refine ⟨⟨fun ⟨text, hok⟩ => ?_, format_of_balanced⟩,
    fun fault => ⟨fun hfault => ?_, format_of_rejects⟩⟩
  · by_contra hb
    obtain ⟨fault, hr⟩ := exists_rejects hb
    rw [format_of_rejects hr] at hok
    cases hok
  · obtain ⟨first, hr⟩ := exists_rejects (hexcluded hfault)
    have hsame := format_of_rejects hr
    rw [hfault] at hsame
    cases hsame
    exact hr

end RequestFlow.Layout

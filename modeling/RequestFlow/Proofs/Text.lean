/-
Texts that are put together are taken apart again: fields between separators,
lines, and decimal numerals.
-/
import RequestFlow.Graph.Node
import RequestFlow.Text.Blank
import RequestFlow.Text.Numeral
import RequestFlow.Text.Pieces

namespace RequestFlow

namespace Chars

variable {separator : Char} {piece rest : List Char}

theorem fields_ne_nil (separator : Char) (s : List Char) : fields separator s ≠ [] := by
  cases s with
  | nil => simp [fields]
  | cons c s =>
    rw [fields]
    split
    · simp
    · split <;> simp

/-- The fields of a text, each with the separator before it, make up the text. -/
theorem exists_fields (separator : Char) (s : List Char) :
    ∃ rest, fields separator s = s.takeWhile (· != separator) :: rest ∧
      s.takeWhile (· != separator) ++ rest.flatMap (separator :: ·) = s := by
  induction s with
  | nil => exact ⟨[], rfl, rfl⟩
  | cons c s ih =>
    obtain ⟨rest, hfields, hs⟩ := ih
    by_cases hc : c = separator
    · refine ⟨s.takeWhile (· != separator) :: rest, ?_, ?_⟩
      · simp [fields, hc, hfields]
      · simp [hc, hs]
    · refine ⟨rest, ?_, ?_⟩
      · simp [fields, hc, hfields]
      · simp [hc, hs]

theorem fields_append (h : separator ∉ piece) :
    fields separator (piece ++ separator :: rest) = piece :: fields separator rest := by
  induction piece with
  | nil => rw [List.nil_append, fields, if_pos rfl]
  | cons c piece ih =>
    obtain ⟨hc, hp⟩ := not_or.mp (mt List.mem_cons.mpr h)
    rw [List.cons_append, fields, if_neg (Ne.symm hc), ih hp]

theorem fields_of_not_mem (h : separator ∉ piece) : fields separator piece = [piece] := by
  induction piece with
  | nil => rfl
  | cons c piece ih =>
    obtain ⟨hc, hp⟩ := not_or.mp (mt List.mem_cons.mpr h)
    rw [fields, if_neg (Ne.symm hc), ih hp]

theorem fields_intercalate {pieces : List (List Char)} (hne : pieces ≠ [])
    (h : ∀ piece ∈ pieces, separator ∉ piece) :
    fields separator (List.intercalate [separator] pieces) = pieces := by
  induction pieces with
  | nil => exact absurd rfl hne
  | cons piece pieces ih =>
    have hpiece := h piece List.mem_cons_self
    cases pieces with
    | nil => simpa using fields_of_not_mem hpiece
    | cons next pieces =>
      have hrest := ih (by simp) fun p hp => h p (List.mem_cons_of_mem _ hp)
      rw [List.intercalate_cons_cons, List.append_assoc, List.singleton_append,
        fields_append hpiece, hrest]

theorem fields_append_cons (s rest : List Char) :
    fields separator (s ++ separator :: rest) = fields separator s ++ fields separator rest := by
  induction s with
  | nil => simp [fields]
  | cons c s ih =>
    rw [List.cons_append, fields, fields, ih]
    split
    · rfl
    · obtain ⟨first, more, hs⟩ := List.exists_cons_of_ne_nil (fields_ne_nil separator s)
      rw [hs]
      rfl

theorem dropReturn_of_getLast? (h : piece.getLast? ≠ some '\r') : dropReturn piece = piece := by
  unfold dropReturn
  split
  · next r hr =>
    refine absurd ?_ h
    rw [← List.head?_reverse, hr, List.head?_cons]
  · rfl

theorem dropReturn_of_not_mem (h : '\r' ∉ piece) : dropReturn piece = piece :=
  dropReturn_of_getLast? fun hl => h (List.mem_of_getLast? hl)

/-! ## Lines -/

/-- All lines but the last have an end. -/
theorem close_append (ls : List (List Char)) {more : List (List Char)} (hm : more ≠ []) :
    lines.close (ls ++ more) = ls.map dropReturn ++ lines.close more := by
  induction ls with
  | nil => rfl
  | cons line ls ih =>
    have hne : ls ++ more ≠ [] := by simp [hm]
    rw [List.cons_append, lines.close, ih, List.map_cons, List.cons_append]
    exact hne

/-- The lines up to a line feed, and those after it. -/
theorem lines_append_cons (s rest : List Char) :
    lines (s ++ '\n' :: rest) = (fields '\n' s).map dropReturn ++ lines rest := by
  rw [lines, fields_append_cons, close_append _ (fields_ne_nil '\n' rest), lines]

/-- Lines that are put together are the lines of the text. -/
theorem lines_join {ls : List String} (hn : ∀ line ∈ ls, '\n' ∉ line.toList)
    (hr : ∀ line ∈ ls, '\r' ∉ line.toList) :
    lines (String.join (ls.map (· ++ "\n"))).toList = ls.map String.toList := by
  induction ls with
  | nil => rfl
  | cons line ls ih =>
    obtain ⟨hn, hns⟩ := List.forall_mem_cons.mp hn
    obtain ⟨hr, hrs⟩ := List.forall_mem_cons.mp hr
    have htext : (String.join ((line :: ls).map (· ++ "\n"))).toList =
        line.toList ++ '\n' :: (String.join (ls.map (· ++ "\n"))).toList := by
      simp [String.join_cons]
    rw [htext, lines_append_cons, fields_of_not_mem hn, ih hns hrs]
    simp [dropReturn_of_not_mem hr]

theorem dropWhile_of_forall {p : Char → Bool} (h : ∀ c ∈ piece, p c = false) :
    piece.dropWhile p = piece := by
  cases piece with
  | nil => rfl
  | cons c piece => rw [List.dropWhile_cons_of_neg (by simp [h])]

theorem dropTailWhile_of_forall {p : Char → Bool} (h : ∀ c ∈ piece, p c = false) :
    dropTailWhile p piece = piece := by
  have hkeep : piece.reverse.dropWhile p = piece.reverse := dropWhile_of_forall (by simpa using h)
  rw [dropTailWhile, hkeep, List.reverse_reverse]

theorem trim_of_forall (h : ∀ c ∈ piece, isBlank c = false) : trim piece = piece := by
  rw [trim, trimStart, dropWhile_of_forall h, trimEnd, dropTailWhile_of_forall h]

theorem after?_append (head s : List Char) : after? head (head ++ s) = some s := by
  induction head with
  | nil => rfl
  | cons c head ih => rw [List.cons_append, after?, if_pos rfl, ih]

end Chars

theorem Text.after?_append (head s : String) : after? head (head ++ s) = some s := by
  rw [after?, String.toList_append, Chars.after?_append, Option.map_some, String.ofList_toList]

namespace Numeral

theorem isBlank_of_isDigit {c : Char} (h : c.isDigit = true) : isBlank c = false := by
  have hc : 48 ≤ c.toNat ∧ c.toNat ≤ 57 := by
    simpa [Char.isDigit, UInt32.le_iff_toNat_le] using h
  simp [isBlank, blankRanges]
  omega

theorem digit?_of_isDigit {c : Char} (h : c.isDigit = true) : digit? c = some (c.toNat - '0'.toNat) := by
  have hc : '0' ≤ c ∧ c ≤ '9' := by
    simpa [Char.isDigit, Char.le_def] using h
  rw [digit?, if_pos hc]

theorem le_ofDigitChars (s : List Char) (value : Nat) : value ≤ Nat.ofDigitChars 10 s value := by
  induction s generalizing value with
  | nil => exact Nat.le_refl _
  | cons c s ih =>
    rw [Nat.ofDigitChars_cons]
    exact Nat.le_trans (by omega) (ih _)

/-- Digits are read as the number they denote, if it fits. -/
theorem readDigits_eq {value : Nat} {s : List Char} (hd : ∀ c ∈ s, c.isDigit = true)
    (hb : Nat.ofDigitChars 10 s value < wordBound) :
    readDigits value s = .ok (Nat.ofDigitChars 10 s value) := by
  induction s generalizing value with
  | nil => rfl
  | cons c s ih =>
    obtain ⟨hc, hs⟩ := List.forall_mem_cons.mp hd
    rw [Nat.ofDigitChars_cons] at hb ⊢
    have hnext : 10 * value + (c.toNat - '0'.toNat) < wordBound :=
      Nat.lt_of_le_of_lt (le_ofDigitChars _ _) hb
    rw [readDigits, digit?_of_isDigit hc]
    dsimp only
    rw [if_pos hnext, ih hs hb]

theorem readDigits_lt {value n : Nat} {s : List Char} (hv : value < wordBound)
    (h : readDigits value s = .ok n) : n < wordBound := by
  induction s generalizing value with
  | nil =>
    cases h
    exact hv
  | cons c s ih =>
    rw [readDigits] at h
    split at h
    · cases h
    · dsimp only at h
      split at h
      · next hlt => exact ih hlt h
      · cases h

theorem readDigits_tooLarge {value : Nat} {s : List Char} (hd : ∀ c ∈ s, c.isDigit = true)
    (hv : value < wordBound) (hb : wordBound ≤ Nat.ofDigitChars 10 s value) :
    readDigits value s = .error .tooLarge := by
  induction s generalizing value with
  | nil => exact absurd hb (Nat.not_le.mpr hv)
  | cons c s ih =>
    obtain ⟨hc, hs⟩ := List.forall_mem_cons.mp hd
    rw [readDigits, digit?_of_isDigit hc]
    dsimp only
    split
    · next hnext => exact ih hs hnext (Nat.ofDigitChars_cons ▸ hb)
    · rfl

theorem isDigit_of_mem_toDigits {n : Nat} : ∀ c ∈ Nat.toDigits 10 n, c.isDigit = true :=
  fun _ hc => Nat.isDigit_of_mem_toDigits (by decide) (by decide) hc

/-- Written digits have no sign before them. -/
theorem read_toDigits (n : Nat) : read (Nat.toDigits 10 n) = readDigits 0 (Nat.toDigits 10 n) := by
  have hplus : '+' ∉ Nat.toDigits 10 n := fun hm => absurd (isDigit_of_mem_toDigits _ hm) (by decide)
  rw [read]
  · exact Nat.toDigits_ne_nil
  · intro hs
    rw [hs] at hplus
    simp at hplus
  · intro rest hs
    rw [hs] at hplus
    simp at hplus

theorem read_toDigits_of_lt {n : Nat} (h : n < wordBound) : read (Nat.toDigits 10 n) = .ok n := by
  have hvalue : Nat.ofDigitChars 10 (Nat.toDigits 10 n) 0 = n := Nat.ofDigitChars_ten_toDigits
  rw [read_toDigits, readDigits_eq isDigit_of_mem_toDigits (by rwa [hvalue]), hvalue]

theorem read_toDigits_of_le {n : Nat} (h : wordBound ≤ n) :
    read (Nat.toDigits 10 n) = .error .tooLarge := by
  have hvalue : Nat.ofDigitChars 10 (Nat.toDigits 10 n) 0 = n := Nat.ofDigitChars_ten_toDigits
  rw [read_toDigits, readDigits_tooLarge isDigit_of_mem_toDigits (by decide) (by rwa [hvalue])]

end Numeral

namespace NodeId

/-- An id is read back as it was written. -/
theorem read_toString {id : NodeId} (h : id < wordBound) : read (toString id) = .ok id := by
  have hblank : ∀ c ∈ Nat.toDigits 10 id, isBlank c = false := fun c hc =>
    Numeral.isBlank_of_isDigit (Numeral.isDigit_of_mem_toDigits c hc)
  rw [read, Nat.toString_eq_ofList_toDigits, String.toList_ofList, Chars.trim_of_forall hblank,
    Numeral.read_toDigits_of_lt h]

theorem lt_of_read {s : String} {id : NodeId} (h : read s = .ok id) : id < wordBound := by
  unfold read Numeral.read at h
  have hz : 0 < wordBound := by decide
  split at h
  · cases h
  · cases h
  · exact Numeral.readDigits_lt hz h
  · exact Numeral.readDigits_lt hz h

end NodeId

end RequestFlow

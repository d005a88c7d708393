/-
What is written as JSON is read back. The text of a value may be followed by
anything that does not go on with a number; gaps may stand before it, and how
items are set apart does not matter as long as it is by gaps.

Each bracket and each item takes a step of the reader, and each of them is
written with a character at least, so the length of the text is steps enough.
-/
import RequestFlow.Json.Reader
import RequestFlow.Json.Writer
import RequestFlow.Proofs.Text

namespace RequestFlow.Json

namespace Reader

/-! ## Strings -/

theorem hexDigit?_hexDigit : ∀ n < 16, hexDigit? (Writer.hexDigit n) = some n := by decide

theorem unit?_hexDigits {n : Nat} (h : n < 0x20) :
    unit? '0' '0' (Writer.hexDigit (n / 16)) (Writer.hexDigit (n % 16)) = some n := by
  have hzero : hexDigit? '0' = some 0 := by decide
  rw [unit?, hzero, hexDigit?_hexDigit _ (by omega), hexDigit?_hexDigit _ (by omega)]
  simp only [Option.bind_eq_bind, Option.bind_some, Option.some.injEq]
  omega

/-- A character that is not escaped stands for itself. -/
theorem pieces_cons {c : Char} {s : List Char} (hq : c ≠ '"') (hb : c ≠ '\\')
    (hc : 0x20 ≤ c.toNat) : pieces (c :: s) = put (.char c) (pieces s) := by
  rw [pieces]
  · rw [if_neg (by omega)]
  · exact fun h => hq h
  · exact fun a b c d rest h => absurd h hb
  · exact fun c rest h => absurd h hb

/-- The characters that are written as a backslash and a letter. -/
def lettered : List Char := ['"', '\\', '\x08', '\x0c', '\n', '\r', '\t']

/-- The characters that are written by their number. -/
def isNumbered (c : Char) : Bool := c.toNat < 0x20 && c ∉ lettered

/-- What the text of a character is read as. -/
def pieceOf (c : Char) : Piece := if isNumbered c then .unit c.toNat else .char c

theorem pieces_escape (c : Char) (s : List Char) :
    pieces (Writer.escape c ++ s) = put (pieceOf c) (pieces s) := by
  by_cases hl : c ∈ lettered
  · have hn : isNumbered c = false := by simp [isNumbered, hl]
    simp only [lettered, List.mem_cons, List.not_mem_nil, or_false] at hl
    rcases hl with rfl | rfl | rfl | rfl | rfl | rfl | rfl <;>
      simp [Writer.escape, pieces, escape?, pieceOf, hn]
  · obtain ⟨hq, hb⟩ : c ≠ '"' ∧ c ≠ '\\' := by simp_all [lettered]
    by_cases hc : c.toNat < 0x20
    · have hn : isNumbered c = true := by simp [isNumbered, hl, hc]
      have he : Writer.escape c = ['\\', 'u', '0', '0', Writer.hexDigit (c.toNat / 16),
          Writer.hexDigit (c.toNat % 16)] := by
        simp_all [Writer.escape, lettered]
      rw [he, pieceOf, if_pos hn]
      simp only [List.cons_append, List.nil_append, pieces, unit?_hexDigits hc]
    · have hn : isNumbered c = false := by simp [isNumbered, hc]
      have he : Writer.escape c = [c] := by simp_all [Writer.escape, lettered]
      rw [he, List.singleton_append, pieces_cons hq hb (by omega), pieceOf, if_neg (by simp [hn])]

theorem pieces_flatMap (s rest : List Char) :
    pieces (s.flatMap Writer.escape ++ '"' :: rest) = .ok (s.map pieceOf, rest) := by
  induction s with
  | nil => rw [List.flatMap_nil, List.nil_append, pieces, List.map_nil]
  | cons c s ih =>
    rw [List.flatMap_cons, List.append_assoc, pieces_escape, ih]
    rfl

theorem join_pieceOf (s : List Char) : join (s.map pieceOf) = some s := by
  induction s with
  | nil => rfl
  | cons c s ih =>
    rw [List.map_cons]
    by_cases hc : isNumbered c = true
    · have hlt : c.toNat < 0x20 := by simp_all [isNumbered]
      have hhigh : isHigh c.toNat = false := by simp [isHigh]; omega
      have hlow : isLow c.toNat = false := by simp [isLow]; omega
      have hstep : ∀ rest, join (.unit c.toNat :: rest) = (join rest).map (c :: ·) := by
        intro rest
        rcases rest with _ | ⟨_ | _, rest⟩ <;> simp [join, hhigh, hlow]
      rw [pieceOf, if_pos hc, hstep, ih, Option.map_some]
    · rw [pieceOf, if_neg hc, join, ih, Option.map_some]

theorem string_writer (s : String) (rest : List Char) :
    string (s.toList.flatMap Writer.escape ++ '"' :: rest) = .ok (some s, rest) := by
  rw [string, pieces_flatMap]
  simp [Except.map, join_pieceOf]

/-! ## Numbers -/

theorem isDigit_eq (c : Char) : isDigit c = c.isDigit := by
  rw [Bool.eq_iff_iff]
  simp [isDigit, Char.isDigit, Char.le_def]

/-- What stands behind a number does not go on with it. -/
def Ends (rest : List Char) : Prop :=
  ∀ c ∈ rest.head?, isDigit c = false ∧ c ≠ '.' ∧ c ≠ 'e' ∧ c ≠ 'E'

theorem head?_toDigits {n : Nat} (h : n ≠ 0) : (Nat.toDigits 10 n).head? ≠ some '0' := by
  induction n using Nat.strongRecOn with
  | ind n ih =>
    by_cases hlt : n < 10
    · have hdigit : ∀ m : Nat, m < 10 → m ≠ 0 → m.digitChar ≠ '0' := by decide
      simpa [Nat.toDigits_of_lt_base hlt] using hdigit n hlt h
    · have hquot := ih (n / 10) (by omega) (by omega)
      rw [Nat.toDigits_of_base_le (by decide) (by omega), List.head?_append]
      cases hd : Nat.toDigits 10 (n / 10) with
      | nil => exact absurd hd Nat.toDigits_ne_nil
      | cons d ds => simpa [hd] using hquot

theorem digits_append {found rest : List Char} (hne : found ≠ [])
    (hd : ∀ c ∈ found, c.isDigit = true) (hr : Ends rest) :
    digits (found ++ rest) = .ok (found, rest) := by
  have hfound : ∀ c ∈ found, isDigit c = true := fun c hc => (isDigit_eq c).trans (hd c hc)
  have hnone : rest.takeWhile isDigit = [] ∧ rest.dropWhile isDigit = rest := by
    cases rest with
    | nil => exact ⟨rfl, rfl⟩
    | cons c rest =>
      have hc := (hr c rfl).1
      simp [hc]
  rw [digits, List.takeWhile_append_of_pos hfound, List.dropWhile_append_of_pos hfound, hnone.1,
    hnone.2, List.append_nil]
  simp [hne]

theorem whole_toDigits (n : Nat) {rest : List Char} (hr : Ends rest) :
    whole (Nat.toDigits 10 n ++ rest) = .ok (Nat.toDigits 10 n, rest) := by
  have hd : ∀ c ∈ Nat.toDigits 10 n, c.isDigit = true :=
    fun c hc => Nat.isDigit_of_mem_toDigits (by decide) (by decide) hc
  rw [whole, digits_append Nat.toDigits_ne_nil hd hr]
  by_cases hn : n = 0
  · subst hn
    rfl
  · have hhead := head?_toDigits hn
    cases hs : Nat.toDigits 10 n with
    | nil => rfl
    | cons c s =>
      have hc : c ≠ '0' := by simpa [hs] using hhead
      simp only [bind, Except.bind]
      split
      · simp_all
      · rfl

theorem fraction_of_ends {rest : List Char} (hr : Ends rest) : fraction rest = .ok ([], rest) := by
  unfold fraction
  split
  · exact absurd rfl (hr '.' rfl).2.1
  · rfl

theorem exponent_of_ends {rest : List Char} (hr : Ends rest) : exponent rest = .ok ([], rest) := by
  cases rest with
  | nil => rfl
  | cons c rest =>
    obtain ⟨-, -, hlower, hupper⟩ := hr c rfl
    simp only [exponent, hlower, hupper, or_self, if_false]

theorem toList_toString (n : Int) :
    (toString n).toList = (if n < 0 then ['-'] else []) ++ Nat.toDigits 10 n.natAbs := by
  cases n with
  | ofNat n => exact Nat.toList_repr
  | negSucc n =>
    change ("-" ++ Nat.repr (n + 1)).toList = _
    rw [String.toList_append, Nat.toList_repr, if_pos (Int.negSucc_lt_zero n)]
    rfl

/-- A number starts with a digit or a dash. -/
theorem exists_head_toString (n : Int) :
    ∃ c s, (toString n).toList = c :: s ∧ (c.isDigit = true ∨ c = '-') := by
  rw [toList_toString]
  split
  · exact ⟨_, _, rfl, .inr rfl⟩
  · cases hd : Nat.toDigits 10 n.natAbs with
    | nil => exact absurd hd Nat.toDigits_ne_nil
    | cons c s =>
      have hc : c ∈ Nat.toDigits 10 n.natAbs := hd ▸ List.mem_cons_self
      exact ⟨c, s, rfl, .inl (Nat.isDigit_of_mem_toDigits (by decide) (by decide) hc)⟩

theorem number_of_whole {found rest : List Char} (hw : whole (found ++ rest) = .ok (found, rest))
    (hr : Ends rest) : number (found ++ rest) = .ok (integer (ofDigits found), rest) := by
  have hdash : ∀ s, found ++ rest ≠ '-' :: s := by
    intro s hs
    rw [hs] at hw
    simp [whole, digits, isDigit, bind, Except.bind] at hw
  unfold number
  split
  next sign s heq =>
  split at heq
  · exact absurd ‹_› (hdash _)
  · cases heq
    simp [bind, Except.bind, hw, fraction_of_ends hr, exponent_of_ends hr]

theorem number_writer (n : Int) {rest : List Char} (hr : Ends rest) :
    number ((toString n).toList ++ rest) = .ok (integer n, rest) := by
  have hvalue : ofDigits (Nat.toDigits 10 n.natAbs) = n.natAbs := Nat.ofDigitChars_ten_toDigits
  have hw := whole_toDigits n.natAbs hr
  rw [toList_toString]
  split
  · next hneg =>
    have hn : -(n.natAbs : Int) = n := by omega
    generalize n.natAbs = size at hvalue hw hn ⊢
    have hne : size ≠ 0 := by omega
    simp [number, bind, Except.bind, hw, fraction_of_ends hr, exponent_of_ends hr, hvalue, hne, hn,
      -String.ofList_append, -String.ofList_cons]
  · next hpos =>
    have hn : (n.natAbs : Int) = n := by omega
    rw [List.nil_append, number_of_whole hw hr, hvalue, hn]

/-! ## Gaps -/

theorem skipGap_append {gap : List Char} (hg : ∀ c ∈ gap, isGap c = true) (s : List Char) :
    skipGap (gap ++ s) = skipGap s := List.dropWhile_append_of_pos hg

theorem skipGap_skipGap (s : List Char) : skipGap (skipGap s) = skipGap s := by
  have hgap : ∀ c ∈ s.takeWhile isGap, isGap c = true := List.all_eq_true.mp List.all_takeWhile
  have hsplit : s.takeWhile isGap ++ skipGap s = s := List.takeWhile_append_dropWhile
  rw [← skipGap_append hgap, hsplit]

theorem skipGap_cons {c : Char} (hc : isGap c = false) (s : List Char) :
    skipGap (c :: s) = c :: s := List.dropWhile_cons_of_neg (by simp [hc])

theorem Ends.append {gap rest : List Char} (hg : ∀ c ∈ gap, isGap c = true) (hr : Ends rest) :
    Ends (gap ++ rest) := by
  cases gap with
  | nil => exact hr
  | cons c gap =>
    intro d hd
    obtain rfl : c = d := by simpa using hd
    have hc := hg c List.mem_cons_self
    simp only [isGap, Bool.or_eq_true, beq_iff_eq] at hc
    rcases hc with ((rfl | rfl) | rfl) | rfl <;> decide

/-- A number starts with a digit or a dash, and nothing else does. -/
theorem value_number {c : Char} (hc : c.isDigit = true ∨ c = '-') (fuel : Nat) (s : List Char) :
    value (fuel + 1) (c :: s) = number (c :: s) := by
  have hgap : isGap c = false := by
    rcases hc with hc | rfl
    · refine Bool.eq_false_iff.mpr fun h => ?_
      simp only [isGap, Bool.or_eq_true, beq_iff_eq] at h
      rcases h with ((rfl | rfl) | rfl) | rfl <;> exact absurd hc (by decide)
    · decide
  rw [value, skipGap_cons hgap]
  split
  all_goals first
    | rfl
    | (next heq =>
        obtain ⟨rfl, -⟩ := List.cons.inj heq
        exact absurd hc (by decide))

end Reader

/-- The value has no number with a fraction and no garbled part. -/
inductive Plain : Json → Prop
  | null : Plain null
  | flag (value : Bool) : Plain (flag value)
  | integer (value : Int) : Plain (integer value)
  | text (value : String) : Plain (text value)
  | list {items : List Json} (h : ∀ item ∈ items, Plain item) : Plain (list items)
  | object {fields : List (String × Json)} (h : ∀ field ∈ fields, Plain field.2) :
    Plain (object fields)

namespace Writer

/-- Items are set apart by gaps, and values from their names by a colon and gaps. -/
structure Style.Spaced (style : Style) : Prop where
  gap : ∀ level, ∀ c ∈ style.gap level, Reader.isGap c = true
  colon : ∃ gap, style.colon = ':' :: gap ∧ ∀ c ∈ gap, Reader.isGap c = true

theorem pretty_spaced : pretty.Spaced where
  gap level c hc := by
    rcases List.mem_cons.mp hc with rfl | hc
    · decide
    · rw [List.eq_of_mem_replicate hc]
      decide
  colon := ⟨[' '], rfl, fun c hc => by rw [List.mem_singleton.mp hc]; decide⟩

end Writer

namespace Reader

variable {style : Writer.Style}

/-- The value is read back from its text, with gaps before it and whatever follows. -/
def Reads (style : Writer.Style) (json : Json) : Prop :=
  ∀ (level fuel : Nat) (gap rest : List Char), (∀ c ∈ gap, isGap c = true) → Ends rest →
    (Writer.value style level json).length < fuel →
    value fuel (gap ++ (Writer.value style level json ++ rest)) = .ok (json, rest)

theorem Ends.closing (hs : style.Spaced) (level : Nat) {c : Char} (hc : c = ']' ∨ c = '\x7d')
    (rest : List Char) : Ends (style.gap level ++ c :: rest) := by
  refine .append (hs.gap level) ?_
  rcases hc with rfl | rfl <;> simp [Ends, isDigit]

theorem Ends.comma (rest : List Char) : Ends (',' :: rest) := by simp [Ends, isDigit]

/-- The items up to a closing bracket are read back. -/
theorem items_writer (hs : style.Spaced) {level fuel : Nat} (outer : Nat) {first : Json}
    {list : List Json} {gap : List Char} (rest : List Char)
    (h : ∀ item ∈ first :: list, Reads style item)
    (hg : ∀ c ∈ gap, isGap c = true)
    (hf : (Writer.value style level first).length + (Writer.items style level list).length + 1
      < fuel) :
    items fuel (gap ++ (Writer.value style level first ++ (Writer.items style level list
      ++ (style.gap outer ++ ']' :: rest)))) = .ok (first :: list, rest) := by
  induction list generalizing first fuel gap with
  | nil =>
    obtain ⟨fuel, rfl⟩ : ∃ n, fuel = n + 1 := ⟨fuel - 1, by omega⟩
    have hfirst := h first List.mem_cons_self level fuel gap _ hg
      (.closing hs outer (.inl rfl) rest) (by omega)
    have hclose : skipGap (style.gap outer ++ ']' :: rest) = ']' :: rest := by
      rw [skipGap_append (hs.gap outer), skipGap_cons (by decide)]
    rw [Writer.items, List.nil_append, items, hfirst]
    simp only [bind, Except.bind, hclose]
  | cons next list ih =>
    obtain ⟨fuel, rfl⟩ : ∃ n, fuel = n + 1 := ⟨fuel - 1, by omega⟩
    rw [Writer.items] at hf ⊢
    simp only [List.cons_append, List.length_cons, List.length_append] at hf
    have hlen : (Writer.value style level next).length
        + (Writer.items style level list).length + 1 < fuel := by omega
    have hrest := ih (fun item hi => h item (List.mem_cons_of_mem _ hi)) (hs.gap level) hlen
    simp only [List.cons_append, List.append_assoc]
    rw [items, h first List.mem_cons_self level fuel gap _ hg (.comma _) (by omega)]
    simp only [bind, Except.bind, skipGap_cons (by decide : isGap ',' = false), hrest, Except.map]

theorem key_writer (hs : style.Spaced) (name : String) {gap rest : List Char}
    (hg : ∀ c ∈ gap, isGap c = true) :
    key (gap ++ (Writer.string name ++ (style.colon ++ rest))) =
      .ok (some name, style.colon.tail ++ rest) := by
  obtain ⟨blank, hcolon, hb⟩ := hs.colon
  rw [key, skipGap_append hg, Writer.string]
  simp only [List.cons_append, List.append_assoc, List.nil_append,
    skipGap_cons (by decide : isGap '"' = false), string_writer, hcolon, bind, Except.bind,
    skipGap_cons (by decide : isGap ':' = false), List.tail_cons]

/-- The fields up to a closing brace are read back. -/
theorem fields_writer (hs : style.Spaced) {level fuel : Nat} (outer : Nat) {name : String}
    {first : Json} {list : List (String × Json)} {gap : List Char} (rest : List Char)
    (h : ∀ field ∈ (name, first) :: list, Reads style field.2) (hg : ∀ c ∈ gap, isGap c = true)
    (hf : (Writer.field style level (name, first)).length
      + (Writer.fields style level list).length + 1 < fuel) :
    fields fuel (gap ++ (Writer.field style level (name, first)
      ++ (Writer.fields style level list ++ (style.gap outer ++ '\x7d' :: rest)))) =
      .ok (((name, first) :: list).map fun (name, json) => (some name, json), rest) := by
  have hcolon : ∀ c ∈ style.colon.tail, isGap c = true := by
    obtain ⟨blank, hcolon, hb⟩ := hs.colon
    rwa [hcolon]
  have hlength : ∀ field, (Writer.value style level field.2).length
      ≤ (Writer.field style level field).length := by
    intro field
    rw [Writer.field, List.length_append]
    omega
  induction list generalizing name first fuel gap with
  | nil =>
    obtain ⟨fuel, rfl⟩ : ∃ n, fuel = n + 1 := ⟨fuel - 1, by omega⟩
    have hfirst := h _ List.mem_cons_self level fuel style.colon.tail _ hcolon
      (.closing hs outer (.inr rfl) rest) (Nat.lt_of_le_of_lt (hlength _) (by omega))
    have hclose : skipGap (style.gap outer ++ '\x7d' :: rest) = '\x7d' :: rest := by
      rw [skipGap_append (hs.gap outer), skipGap_cons (by decide)]
    rw [Writer.fields, List.nil_append, Writer.field, List.append_assoc, List.append_assoc, fields,
      key_writer hs name hg]
    simp only [bind, Except.bind, hfirst, hclose, List.map_cons, List.map_nil]
  | cons next list ih =>
    obtain ⟨fuel, rfl⟩ : ∃ n, fuel = n + 1 := ⟨fuel - 1, by omega⟩
    obtain ⟨following, json⟩ := next
    rw [Writer.fields] at hf ⊢
    simp only [List.cons_append, List.length_cons, List.length_append] at hf
    have hlen : (Writer.field style level (following, json)).length
        + (Writer.fields style level list).length + 1 < fuel := by omega
    have hrest := ih (fun field hi => h field (List.mem_cons_of_mem _ hi)) (hs.gap level) hlen
    have hfirst : ∀ {tail}, Ends tail → value fuel (style.colon.tail
        ++ (Writer.value style level first ++ tail)) = .ok (first, tail) := fun ht =>
      h _ List.mem_cons_self level fuel _ _ hcolon ht (Nat.lt_of_le_of_lt (hlength _) (by omega))
    rw [Writer.field]
    simp only [List.cons_append, List.append_assoc] at hrest ⊢
    rw [fields, key_writer hs name hg]
    simp only [bind, Except.bind, hfirst (.comma _), skipGap_cons (by decide : isGap ',' = false),
      hrest, Except.map, List.map_cons]

theorem objectOf_some (list : List (String × Json)) :
    objectOf (list.map fun (name, json) => (some name, json)) = object list := by
  have hmap : (list.map fun field => (some field.1, field.2)).mapM
      (fun field => field.1.map (·, field.2)) = some list := by
    induction list with
    | nil => rfl
    | cons field list ih => simp [ih]
  unfold objectOf
  erw [hmap]

theorem value_append {gap : List Char} (hg : ∀ c ∈ gap, isGap c = true) (fuel : Nat)
    (s : List Char) : value (fuel + 1) (gap ++ s) = value (fuel + 1) s := by
  rw [value, value, skipGap_append hg]

theorem Reads.of_step {json : Json}
    (h : ∀ (level fuel : Nat) (rest : List Char), Ends rest →
      (Writer.value style level json).length ≤ fuel →
      value (fuel + 1) (Writer.value style level json ++ rest) = .ok (json, rest)) :
    Reads style json := by
  intro level fuel gap rest hg hr hf
  obtain ⟨fuel, rfl⟩ : ∃ n, fuel = n + 1 := ⟨fuel - 1, by omega⟩
  rw [value_append hg, h level fuel rest hr (by omega)]

theorem reads_integer (n : Int) : Reads style (integer n) := by
  refine .of_step fun level fuel rest hr _ => ?_
  have hs : Writer.value style level (integer n) = (toString n).toList := rfl
  obtain ⟨c, s, hhead, hc⟩ := exists_head_toString n
  rw [hs, ← number_writer n hr, hhead, List.cons_append, value_number hc]

theorem reads_text (s : String) : Reads style (text s) := by
  refine .of_step fun level fuel rest _ _ => ?_
  have hs : Writer.value style level (text s) = Writer.string s := rfl
  rw [hs, Writer.string, List.cons_append, List.cons_append, List.append_assoc, value,
    skipGap_cons (by decide)]
  simp only [List.singleton_append, string_writer, Except.map, Option.elim_some]

/-- A list is read item by item, unless it is empty: a closing bracket starts no item. -/
theorem value_list {fuel : Nat} {s rest : List Char} {found : List Json}
    (h : items (fuel + 2) s = .ok (found, rest)) :
    value (fuel + 3) ('[' :: s) = .ok (.list found, rest) := by
  have hskip : items (fuel + 2) (skipGap s) = items (fuel + 2) s := by
    rw [items, items, value, value, skipGap_skipGap]
  rw [value, skipGap_cons (by decide)]
  conv => lhs; whnf
  split
  · next hclose =>
    rw [items, value, hclose] at h
    simp [number, whole, digits, isDigit, bind, Except.bind] at h
  · rw [hskip, h]
    rfl

/-- An object is read field by field, unless it is empty: a closing brace starts no field. -/
theorem value_object {fuel : Nat} {s rest : List Char} {found : List (Option String × Json)}
    (h : fields (fuel + 1) s = .ok (found, rest)) :
    value (fuel + 2) ('\x7b' :: s) = .ok (objectOf found, rest) := by
  have hskip : fields (fuel + 1) (skipGap s) = fields (fuel + 1) s := by
    rw [fields, fields, key, key, skipGap_skipGap]
  rw [value, skipGap_cons (by decide)]
  conv => lhs; whnf
  split
  · next hclose =>
    rw [fields, key, hclose] at h
    cases h
  · rw [hskip, h]
    rfl

theorem reads_list (hs : style.Spaced) {list : List Json} (h : ∀ item ∈ list, Reads style item) :
    Reads style (.list list) := by
  refine .of_step fun level fuel rest _ hf => ?_
  cases list with
  | nil => rfl
  | cons first list =>
    rw [Writer.value] at hf ⊢
    simp only [List.cons_append, List.length_cons, List.length_append] at hf
    simp only [List.cons_append, List.append_assoc, List.nil_append]
    obtain ⟨fuel, rfl⟩ : ∃ n, fuel = n + 2 := ⟨fuel - 2, by omega⟩
    exact value_list (items_writer hs level rest h (hs.gap (level + 1)) (by omega))

theorem reads_object (hs : style.Spaced) {list : List (String × Json)}
    (h : ∀ field ∈ list, Reads style field.2) : Reads style (object list) := by
  refine .of_step fun level fuel rest _ hf => ?_
  cases list with
  | nil => rfl
  | cons first list =>
    obtain ⟨name, json⟩ := first
    rw [Writer.value] at hf ⊢
    simp only [List.cons_append, List.length_cons, List.length_append, List.length_nil] at hf
    simp only [List.cons_append, List.append_assoc, List.nil_append]
    obtain ⟨fuel, rfl⟩ : ∃ n, fuel = n + 1 := ⟨fuel - 1, by omega⟩
    rw [value_object (fields_writer hs level rest h (hs.gap (level + 1)) (by omega)),
      objectOf_some]

theorem reads_of_plain (hs : style.Spaced) {json : Json} (h : Plain json) : Reads style json := by
  induction h with
  | null => exact .of_step fun _ _ _ _ _ => rfl
  | flag b => exact .of_step fun _ _ _ _ _ => by cases b <;> rfl
  | integer n => exact reads_integer n
  | text s => exact reads_text s
  | list _ ih => exact reads_list hs ih
  | object _ ih => exact reads_object hs ih

end Reader

/-- What is written is read back, whichever way it is set apart. -/
theorem read_writer {style : Writer.Style} (hs : style.Spaced) {json : Json} (h : Plain json) :
    read (String.ofList (Writer.value style 0 json)) = .ok json := by
  have hread := Reader.reads_of_plain hs h 0 ((Writer.value style 0 json).length + 1) [] []
    (by simp) (by simp [Reader.Ends]) (Nat.lt_succ_self _)
  rw [List.nil_append, List.append_nil] at hread
  simp only [read, String.toList_ofList, hread]
  rfl

theorem read_pretty {json : Json} (h : Plain json) : read json.pretty = .ok json :=
  read_writer Writer.pretty_spaced h

end RequestFlow.Json

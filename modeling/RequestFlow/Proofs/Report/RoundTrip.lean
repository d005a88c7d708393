/-
Stored reports are read back as they were. What is accepted is said record by
record; a report is accepted from its own text when its sets of types let
`NON_REACH` stand alone, its lists of witnesses are not empty and its numbers are
words, and no other report is accepted from any text.
-/
import Mathlib.Data.List.TakeDrop
import Mathlib.Data.List.TakeWhile
import RequestFlow.Proofs.Json.RoundTrip
import RequestFlow.Proofs.Semantic.TypeSet
import RequestFlow.Report.Json

namespace RequestFlow

/-! ## Numbers and lists -/

namespace Magnitude

theorem addWhole_eq {x : Magnitude} {s : List Char} (hd : ∀ c ∈ s, c.isDigit = true)
    (hb : Nat.ofDigitChars 10 s x.significand < wordBound) :
    addWhole x s = { x with significand := Nat.ofDigitChars 10 s x.significand } := by
  induction s generalizing x with
  | nil => rfl
  | cons c s ih =>
    obtain ⟨hc, hs⟩ := List.forall_mem_cons.mp hd
    rw [Nat.ofDigitChars_cons] at hb ⊢
    have hnext : 10 * x.significand + (c.toNat - '0'.toNat) < wordBound :=
      Nat.lt_of_le_of_lt (Numeral.le_ofDigitChars _ _) hb
    rw [addWhole, Numeral.digit?_of_isDigit hc, Option.getD_some, if_pos hnext]
    exact ih hs hb

theorem span_eq_self {p : Char → Bool} {s : List Char} (h : ∀ c ∈ s, p c = true) :
    s.span p = (s, []) := by
  have hnil : s.dropWhile p = [] := List.dropWhile_eq_nil_iff.mpr h
  rw [List.span_eq_takeWhile_dropWhile, hnil, List.takeWhile_eq_self_iff.mpr h]

theorem ofText_toDigits {n : Nat} (h : n < wordBound) : ofText (Nat.toDigits 10 n) = ⟨n, 0⟩ := by
  have hd : ∀ c ∈ Nat.toDigits 10 n, c.isDigit = true :=
    fun c hc => Nat.isDigit_of_mem_toDigits (by decide) (by decide) hc
  have hne : ∀ d, d.isDigit = false → ∀ c ∈ Nat.toDigits 10 n, c ≠ d := by
    rintro d hn c hc rfl
    rw [hd c hc] at hn
    cases hn
  have hvalue : Nat.ofDigitChars 10 (Nat.toDigits 10 n) 0 = n := Nat.ofDigitChars_ten_toDigits
  have hmark : ∀ c ∈ Nat.toDigits 10 n, (c ≠ 'e' && c ≠ 'E') = true := fun c hc => by
    simp [hne 'e' (by decide) c hc, hne 'E' (by decide) c hc]
  have hpoint : ∀ c ∈ Nat.toDigits 10 n, decide (c ≠ '.') = true := fun c hc => by
    simp [hne '.' (by decide) c hc]
  have hdash : (Nat.toDigits 10 n).dropWhile (· == '-') = Nat.toDigits 10 n :=
    Chars.dropWhile_of_forall fun c hc => by simp [hne '-' (by decide) c hc]
  have hwhole : addWhole {} (Nat.toDigits 10 n) = ⟨n, 0⟩ := by
    rw [addWhole_eq hd (by rwa [hvalue]), hvalue]
  simp only [ofText, span_eq_self hmark, hdash, span_eq_self hpoint, hwhole]
  rfl

theorem nearest_le (n : Nat) : nearest n ≤ 2 * n + 1 := by
  have hstep : 1 <<< (n.log2 - 52) ≤ n + 1 := by
    rw [Nat.one_shiftLeft]
    by_cases hn : n = 0
    · subst hn; decide
    · have hle : 2 ^ (n.log2 - 52) ≤ 2 ^ n.log2 := Nat.pow_le_pow_right (by decide) (by omega)
      have hlog := Nat.log2_self_le hn
      omega
  have hround : ∀ d, Seconds.roundDiv n d * d ≤ n + d := by
    intro d
    have hdiv := Nat.div_mul_le_self n d
    unfold Seconds.roundDiv
    dsimp only
    split
    · omega
    · rw [Nat.add_mul]
      omega
  exact Nat.le_trans (hround _) (by omega)

end Magnitude

namespace Json

theorem word?_ofNat {n : Nat} (h : n < wordBound) : word? (ofNat n) = some n := by
  simp [word?, ofNat, h]

theorem lt_of_word? {json : Json} {n : Nat} (h : json.word? = some n) : n < wordBound := by
  unfold word? at h
  split at h
  · split at h
    · cases h
      omega
    · cases h
  · cases h

/-- Every word is a number that a float can hold. -/
theorem isSound_ofNat {n : Nat} (h : n < wordBound) (depth : Nat) :
    isSound depth (ofNat n) = true := by
  have htext : (toString n).toList = Nat.toDigits 10 n := Nat.toList_repr
  have hnearest := Magnitude.nearest_le n
  have hbound : 2 * wordBound < 1 <<< 1024 - 1 <<< 970 := by decide
  have hone : Magnitude.nearest (Nat.pow 10 0) = 1 := by decide
  rw [ofNat, isSound, Int.natAbs_natCast, htext, Magnitude.ofText_toDigits h, Magnitude.isFinite]
  dsimp only
  rw [Int.toNat_zero, hone, Nat.mul_one]
  have hlt : Magnitude.nearest n < 1 <<< 1024 - 1 <<< 970 := by omega
  simp only [decide_eq_true hlt, Bool.and_true, Bool.or_eq_true]
  exact .inr rfl

section List

variable {α β : Type}

theorem mapM_map {encode : α → β} {item? : β → Option α} {l : List α}
    (h : ∀ x ∈ l, item? (encode x) = some x) : (l.map encode).mapM item? = some l := by
  induction l with
  | nil => rfl
  | cons x l ih =>
    obtain ⟨hx, hl⟩ := List.forall_mem_cons.mp h
    simp [hx, ih hl]

theorem exists_of_mem_mapM {item? : β → Option α} {items : List β} {l : List α}
    (h : items.mapM item? = some l) {x : α} (hx : x ∈ l) : ∃ item ∈ items, item? item = some x := by
  induction items generalizing l with
  | nil => cases h; cases hx
  | cons item items ih =>
    rw [List.mapM_cons] at h
    obtain ⟨first, hfirst, h⟩ := Option.bind_eq_some_iff.mp h
    obtain ⟨rest, hrest, h⟩ := Option.bind_eq_some_iff.mp h
    cases h
    rcases List.mem_cons.mp hx with rfl | hx
    · exact ⟨item, List.mem_cons_self, hfirst⟩
    · obtain ⟨found, hfound, hitem⟩ := ih hrest hx
      exact ⟨found, List.mem_cons_of_mem _ hfound, hitem⟩

theorem exists_of_mem_list? {item? : Json → Option α} {json : Json} {l : List α}
    (h : json.list? item? = some l) {x : α} (hx : x ∈ l) : ∃ item, item? item = some x := by
  unfold list? at h
  split at h
  · obtain ⟨item, -, hitem⟩ := exists_of_mem_mapM h hx
    exact ⟨item, hitem⟩
  · cases h

theorem plain_map {encode : α → Json} (h : ∀ x, Plain (encode x)) (l : List α) :
    Plain (.list (l.map encode)) := by
  refine .list fun item hi => ?_
  obtain ⟨x, -, rfl⟩ := List.mem_map.mp hi
  exact h x

end List

theorem readAs_eq_ok {α : Type} {shape? : Json → Option α} {s : String} {value : α} :
    readAs shape? s = .ok value ↔ ∃ json, read s = .ok json ∧ shape? json = some value := by
  unfold readAs
  cases read s with
  | error fault => simp [bind, Except.bind]
  | ok json => cases hshape : shape? json <;> simp [bind, Except.bind, hshape]

end Json

/-! ## Types -/

namespace TypeSet

theorem named?_name (type : SemanticType) : SemanticType.named? type.name = some type := by
  cases type <;> decide

theorem Absorbs.ofJson?_toJson {set : TypeSet} (h : set.Absorbs) :
    ofJson? set.toJson = some set := by
  have hlist : set.toJson.list? (fun item => do SemanticType.named? (← item.variant?)) =
      some set.types := by
    rw [toJson, Json.texts, List.map_map]
    exact Json.mapM_map fun type _ => named?_name type
  rw [ofJson?, hlist]
  exact congrArg some h.ofList_types

theorem absorbs_of_ofJson? {json : Json} {set : TypeSet} (h : ofJson? json = some set) :
    set.Absorbs := by
  obtain ⟨types, -, h⟩ := Option.bind_eq_some_iff.mp h
  cases h
  exact ofList_absorbs types

theorem plain_toJson (set : TypeSet) : Json.Plain set.toJson := Json.plain_map .text _

end TypeSet

/-! ## Reachability -/

namespace Witness

/-- The ids are words. -/
def WellFormed (witness : Witness) : Prop := witness.call < wordBound ∧ witness.top < wordBound

instance (witness : Witness) : Decidable witness.WellFormed := inferInstanceAs (Decidable (_ ∧ _))

theorem ofJson?_eq_some {json : Json} {witness : Witness} : ofJson? json = some witness ↔
    ∃ call top verdict, json.record? ["call_expr_id", "top_expr_id", "verdict"] =
        some [some call, some top, some verdict] ∧
      call.word? = some witness.call ∧ top.word? = some witness.top ∧
      verdict.text? = some witness.verdict := by
  constructor
  · intro h
    obtain ⟨parts, hparts, h⟩ := Option.bind_eq_some_iff.mp h
    split at h
    · obtain ⟨call, hcall, h⟩ := Option.bind_eq_some_iff.mp h
      obtain ⟨top, htop, h⟩ := Option.bind_eq_some_iff.mp h
      obtain ⟨verdict, hverdict, h⟩ := Option.bind_eq_some_iff.mp h
      cases h
      exact ⟨_, _, _, hparts, hcall, htop, hverdict⟩
    · cases h
  · rintro ⟨call, top, verdict, hparts, hcall, htop, hverdict⟩
    simp [ofJson?, hparts, hcall, htop, hverdict]

theorem WellFormed.ofJson?_toJson {witness : Witness} (h : witness.WellFormed) :
    ofJson? witness.toJson = some witness :=
  ofJson?_eq_some.mpr ⟨_, _, _, rfl, Json.word?_ofNat h.1, Json.word?_ofNat h.2, rfl⟩

theorem wellFormed_of_ofJson? {json : Json} {witness : Witness} (h : ofJson? json = some witness) :
    witness.WellFormed := by
  obtain ⟨call, top, verdict, -, hcall, htop, -⟩ := ofJson?_eq_some.mp h
  exact ⟨Json.lt_of_word? hcall, Json.lt_of_word? htop⟩

theorem plain_toJson (witness : Witness) : Json.Plain witness.toJson :=
  .object (by simp [Json.Plain.integer, Json.Plain.text, Json.ofNat])

theorem WellFormed.isSound_toJson {witness : Witness} (h : witness.WellFormed) (depth : Nat) :
    witness.toJson.isSound (depth + 1) = true := by
  simp [toJson, Json.isSound, Json.fieldsSound, Json.fieldSound, Json.isSound_ofNat h.1,
    Json.isSound_ofNat h.2]

end Witness

namespace Reachability

/-- There is a witness in the list, and the ids of the witnesses are words. -/
def WellFormed : Reachability → Prop
  | witnesses list => list ≠ [] ∧ ∀ witness ∈ list, witness.WellFormed
  | _ => True

instance (reachability : Reachability) : Decidable reachability.WellFormed :=
  match reachability with
  | onPageLoad => .isTrue trivial
  | unreachable => .isTrue trivial
  | witnesses list => inferInstanceAs (Decidable (list ≠ [] ∧ ∀ witness ∈ list, witness.WellFormed))

theorem allSound_map {list : List Witness} (h : ∀ witness ∈ list, witness.WellFormed)
    (depth : Nat) : Json.allSound (depth + 1) (list.map Witness.toJson) = true := by
  induction list with
  | nil => rfl
  | cons witness list ih =>
    obtain ⟨hw, hl⟩ := List.forall_mem_cons.mp h
    rw [List.map_cons, Json.allSound, hw.isSound_toJson, ih hl]
    rfl

theorem WellFormed.ofJson?_toJson {reachability : Reachability} (h : reachability.WellFormed) :
    ofJson? reachability.toJson = some reachability := by
  cases reachability with
  | onPageLoad => rfl
  | unreachable => rfl
  | witnesses list =>
    obtain ⟨hne, hlist⟩ := h
    have hsound : (toJson (witnesses list)).isSound depthLimit = true := by
      rw [toJson, depthLimit, Json.isSound, allSound_map hlist]
      rfl
    have hread : (toJson (witnesses list)).list? Witness.ofJson? = some list :=
      Json.mapM_map fun witness hw => (hlist witness hw).ofJson?_toJson
    have hvariant : (toJson (witnesses list)).variant? = none := rfl
    rw [ofJson?, if_pos hsound, hvariant, hread]
    cases list with
    | nil => exact absurd rfl hne
    | cons first rest => rfl

theorem wellFormed_of_ofJson? {json : Json} {reachability : Reachability}
    (h : ofJson? json = some reachability) : reachability.WellFormed := by
  unfold ofJson? at h
  split at h
  · split at h
    · cases h; trivial
    · cases h; trivial
    · split at h
      · next first rest hlist =>
        cases h
        refine ⟨List.cons_ne_nil _ _, fun witness hw => ?_⟩
        obtain ⟨item, hitem⟩ := Json.exists_of_mem_list? hlist hw
        exact Witness.wellFormed_of_ofJson? hitem
      · cases h
  · cases h

theorem plain_toJson (reachability : Reachability) : Json.Plain reachability.toJson := by
  cases reachability with
  | onPageLoad => exact .text _
  | unreachable => exact .text _
  | witnesses list => exact Json.plain_map Witness.plain_toJson list

end Reachability

/-! ## Slices -/

namespace SliceEntry

theorem ofJson?_eq_some {json : Json} {entry : SliceEntry} : ofJson? json = some entry ↔
    ∃ index location code, json.record? ["index", "loc", "code"] =
        some [some index, some location, some code] ∧
      index.word? = some entry.index ∧ location.text? = some entry.location ∧
      code.text? = some entry.code := by
  constructor
  · intro h
    obtain ⟨parts, hparts, h⟩ := Option.bind_eq_some_iff.mp h
    split at h
    · obtain ⟨index, hindex, h⟩ := Option.bind_eq_some_iff.mp h
      obtain ⟨location, hlocation, h⟩ := Option.bind_eq_some_iff.mp h
      obtain ⟨code, hcode, h⟩ := Option.bind_eq_some_iff.mp h
      cases h
      exact ⟨_, _, _, hparts, hindex, hlocation, hcode⟩
    · cases h
  · rintro ⟨index, location, code, hparts, hindex, hlocation, hcode⟩
    simp [ofJson?, hparts, hindex, hlocation, hcode]

theorem ofJson?_toJson {entry : SliceEntry} (h : entry.index < wordBound) :
    ofJson? entry.toJson = some entry :=
  ofJson?_eq_some.mpr ⟨_, _, _, rfl, Json.word?_ofNat h, rfl, rfl⟩

theorem index_lt_of_ofJson? {json : Json} {entry : SliceEntry} (h : ofJson? json = some entry) :
    entry.index < wordBound := by
  obtain ⟨index, location, code, -, hindex, -⟩ := ofJson?_eq_some.mp h
  exact Json.lt_of_word? hindex

theorem plain_toJson (entry : SliceEntry) : Json.Plain entry.toJson :=
  .object (by simp [Json.Plain.integer, Json.Plain.text, Json.ofNat])

end SliceEntry

namespace VariableSlices

/-- `NON_REACH` stands alone among the types, and the slices are numbered by words. -/
def WellFormed (slices : VariableSlices) : Prop :=
  slices.types.Absorbs ∧ ∀ entry ∈ slices.slices, entry.index < wordBound

instance (slices : VariableSlices) : Decidable slices.WellFormed :=
  inferInstanceAs (Decidable (_ ∧ _))

theorem ofJson?_eq_some {json : Json} {slices : VariableSlices} : ofJson? json = some slices ↔
    ∃ types entries, json.record? ["semantic_types", "slices"] = some [some types, some entries] ∧
      TypeSet.ofJson? types = some slices.types ∧
      entries.list? SliceEntry.ofJson? = some slices.slices := by
  constructor
  · intro h
    obtain ⟨parts, hparts, h⟩ := Option.bind_eq_some_iff.mp h
    split at h
    · obtain ⟨types, htypes, h⟩ := Option.bind_eq_some_iff.mp h
      obtain ⟨entries, hentries, h⟩ := Option.bind_eq_some_iff.mp h
      cases h
      exact ⟨_, _, hparts, htypes, hentries⟩
    · cases h
  · rintro ⟨types, entries, hparts, htypes, hentries⟩
    simp [ofJson?, hparts, htypes, hentries]

theorem WellFormed.ofJson?_toJson {slices : VariableSlices} (h : slices.WellFormed) :
    ofJson? slices.toJson = some slices :=
  ofJson?_eq_some.mpr ⟨_, _, rfl, h.1.ofJson?_toJson,
    Json.mapM_map fun entry he => SliceEntry.ofJson?_toJson (h.2 entry he)⟩

theorem wellFormed_of_ofJson? {json : Json} {slices : VariableSlices}
    (h : ofJson? json = some slices) : slices.WellFormed := by
  obtain ⟨types, entries, -, htypes, hentries⟩ := ofJson?_eq_some.mp h
  refine ⟨TypeSet.absorbs_of_ofJson? htypes, fun entry he => ?_⟩
  obtain ⟨item, hitem⟩ := Json.exists_of_mem_list? hentries he
  exact SliceEntry.index_lt_of_ofJson? hitem

theorem plain_toJson (slices : VariableSlices) : Json.Plain slices.toJson :=
  .object (by simp [TypeSet.plain_toJson, Json.plain_map SliceEntry.plain_toJson])

end VariableSlices

namespace SliceTable

theorem place_of_last {name : String} {slices : VariableSlices}
    {entries : List (String × VariableSlices)} (h : ∀ entry ∈ entries, entry.1 < name) :
    place name slices entries = entries ++ [(name, slices)] := by
  induction entries with
  | nil => rfl
  | cons entry entries ih =>
    obtain ⟨hentry, hrest⟩ := List.forall_mem_cons.mp h
    have hne : name ≠ entry.1 := fun he => String.lt_irrefl name (he ▸ hentry)
    have hlt : ¬ name < entry.1 := fun hlt => String.lt_irrefl _ (String.lt_trans hlt hentry)
    rw [place, if_neg hne, if_neg hlt, ih hrest, List.cons_append]

/-- Entries that come in order are added at the end. -/
theorem foldl_insert {entries : List (String × VariableSlices)} {table : SliceTable}
    (h : (table.entries ++ entries).Pairwise (·.1 < ·.1)) :
    (entries.foldl (fun table (name, slices) => table.insert name slices) table).entries =
      table.entries ++ entries := by
  induction entries generalizing table with
  | nil => rw [List.append_nil, List.foldl_nil]
  | cons entry entries ih =>
    have hlast : ∀ e ∈ table.entries, e.1 < entry.1 := fun e he =>
      (List.pairwise_append.mp h).2.2 e he entry List.mem_cons_self
    have hinsert : (table.insert entry.1 entry.2).entries = table.entries ++ [entry] :=
      place_of_last hlast
    have hsplit : table.entries ++ entry :: entries =
        (table.insert entry.1 entry.2).entries ++ entries := by
      rw [hinsert, List.append_assoc, List.singleton_append]
    rw [hsplit] at h ⊢
    exact ih h

theorem ofList_entries (table : SliceTable) : ofList table.entries = table := by
  have h : (ofList table.entries).entries = ({} : SliceTable).entries ++ table.entries :=
    foldl_insert table.ordered
  cases table
  exact SliceTable.mk.injEq .. ▸ h

theorem mem_of_mem_place {name : String} {slices : VariableSlices} {e : String × VariableSlices}
    {entries : List (String × VariableSlices)} (h : e ∈ place name slices entries) :
    e = (name, slices) ∨ e ∈ entries := by
  induction entries with
  | nil => simpa [place] using h
  | cons entry rest ih =>
    rw [place] at h
    split at h
    · grind
    · split at h <;> grind

theorem mem_of_mem_ofList {entries : List (String × VariableSlices)} {e : String × VariableSlices}
    (h : e ∈ (ofList entries).entries) : e ∈ entries := by
  have hfold : ∀ table : SliceTable, e ∈ (entries.foldl
      (fun table (name, slices) => table.insert name slices) table).entries →
      e ∈ table.entries ∨ e ∈ entries := by
    clear h
    induction entries with
    | nil => exact fun table he => .inl he
    | cons entry entries ih =>
      intro table he
      rcases ih _ he with he | he
      · rcases mem_of_mem_place he with rfl | he
        · exact .inr List.mem_cons_self
        · exact .inl he
      · exact .inr (List.mem_cons_of_mem _ he)
  exact (hfold {} h).resolve_left List.not_mem_nil

theorem ofJson?_toJson {table : SliceTable} (h : ∀ entry ∈ table.entries, entry.2.WellFormed) :
    ofJson? table.toJson = some table := by
  have hentries : (table.entries.map fun entry => (entry.1, entry.2.toJson)).mapM
      (fun entry => do some (entry.1, ← VariableSlices.ofJson? entry.2)) = some table.entries :=
    Json.mapM_map fun entry he => by
      dsimp only
      rw [(h entry he).ofJson?_toJson]
      rfl
  rw [toJson, ofJson?]
  erw [hentries]
  exact congrArg some (ofList_entries table)

theorem wellFormed_of_ofJson? {json : Json} {table : SliceTable} (h : ofJson? json = some table)
    {entry : String × VariableSlices} (he : entry ∈ table.entries) : entry.2.WellFormed := by
  unfold ofJson? at h
  split at h
  · obtain ⟨entries, hentries, h⟩ := Option.bind_eq_some_iff.mp h
    cases h
    obtain ⟨field, -, hfield⟩ := Json.exists_of_mem_mapM hentries (mem_of_mem_ofList he)
    obtain ⟨slices, hslices, hfield⟩ := Option.bind_eq_some_iff.mp hfield
    cases hfield
    exact VariableSlices.wellFormed_of_ofJson? hslices
  · cases h

theorem plain_toJson (table : SliceTable) : Json.Plain table.toJson := by
  refine .object fun field hf => ?_
  obtain ⟨entry, -, rfl⟩ := List.mem_map.mp hf
  exact entry.2.plain_toJson

end SliceTable

/-! ## Reports -/

namespace Flow

/-- `NON_REACH` stands alone in each set of types, ids and indices are words, and there is a witness
in each list of witnesses. -/
structure WellFormed (flow : Flow) : Prop where
  types : flow.types.Absorbs
  node : flow.node < wordBound
  statement : flow.statement < wordBound
  slices : ∀ entry ∈ flow.slices.entries, entry.2.WellFormed
  reachability : flow.reachability.WellFormed

theorem wellFormed_iff {flow : Flow} : flow.WellFormed ↔ flow.types.Absorbs ∧
    flow.node < wordBound ∧ flow.statement < wordBound ∧
    (∀ entry ∈ flow.slices.entries, entry.2.WellFormed) ∧ flow.reachability.WellFormed :=
  ⟨fun ⟨h₁, h₂, h₃, h₄, h₅⟩ => ⟨h₁, h₂, h₃, h₄, h₅⟩, fun ⟨h₁, h₂, h₃, h₄, h₅⟩ => ⟨h₁, h₂, h₃, h₄, h₅⟩⟩

instance (flow : Flow) : Decidable flow.WellFormed := decidable_of_iff' _ wellFormed_iff

theorem ofJson?_eq_some {json : Json} {flow : Flow} : ofJson? json = some flow ↔
    ∃ webpage script types node statement location sinkType sinkCode slices reachability isPartial,
      json.record? keys = some [some webpage, some script, some types, some node, some statement,
        some location, some sinkType, some sinkCode, some slices, some reachability, isPartial] ∧
      webpage.text? = some flow.webpage ∧ script.text? = some flow.script ∧
      TypeSet.ofJson? types = some flow.types ∧ node.word? = some flow.node ∧
      statement.word? = some flow.statement ∧ location.text? = some flow.location ∧
      sinkType.text? = some flow.sinkType ∧ sinkCode.text? = some flow.sinkCode ∧
      SliceTable.ofJson? slices = some flow.slices ∧
      Reachability.ofJson? reachability = some flow.reachability ∧
      isPartial.elim (some false) Json.flag? = some flow.isPartial := by
  constructor
  · intro h
    obtain ⟨parts, hparts, h⟩ := Option.bind_eq_some_iff.mp h
    split at h
    · obtain ⟨webpage, hwebpage, h⟩ := Option.bind_eq_some_iff.mp h
      obtain ⟨script, hscript, h⟩ := Option.bind_eq_some_iff.mp h
      obtain ⟨types, htypes, h⟩ := Option.bind_eq_some_iff.mp h
      obtain ⟨node, hnode, h⟩ := Option.bind_eq_some_iff.mp h
      obtain ⟨statement, hstatement, h⟩ := Option.bind_eq_some_iff.mp h
      obtain ⟨location, hlocation, h⟩ := Option.bind_eq_some_iff.mp h
      obtain ⟨sinkType, hsinkType, h⟩ := Option.bind_eq_some_iff.mp h
      obtain ⟨sinkCode, hsinkCode, h⟩ := Option.bind_eq_some_iff.mp h
      obtain ⟨slices, hslices, h⟩ := Option.bind_eq_some_iff.mp h
      obtain ⟨reachability, hreachability, h⟩ := Option.bind_eq_some_iff.mp h
      refine ⟨_, _, _, _, _, _, _, _, _, _, _, hparts, ?_⟩
      split at h
      · obtain ⟨isPartial, hpartial, h⟩ := Option.bind_eq_some_iff.mp h
        cases h
        exact ⟨hwebpage, hscript, htypes, hnode, hstatement, hlocation, hsinkType, hsinkCode,
          hslices, hreachability, hpartial⟩
      · cases h
        exact ⟨hwebpage, hscript, htypes, hnode, hstatement, hlocation, hsinkType, hsinkCode,
          hslices, hreachability, rfl⟩
    · cases h
  · rintro ⟨webpage, script, types, node, statement, location, sinkType, sinkCode, slices,
      reachability, isPartial, hparts, hwebpage, hscript, htypes, hnode, hstatement, hlocation,
      hsinkType, hsinkCode, hslices, hreachability, hpartial⟩
    refine Option.bind_eq_some_iff.mpr ⟨_, hparts, ?_⟩
    refine Option.bind_eq_some_iff.mpr ⟨_, hwebpage, ?_⟩
    refine Option.bind_eq_some_iff.mpr ⟨_, hscript, ?_⟩
    refine Option.bind_eq_some_iff.mpr ⟨_, htypes, ?_⟩
    refine Option.bind_eq_some_iff.mpr ⟨_, hnode, ?_⟩
    refine Option.bind_eq_some_iff.mpr ⟨_, hstatement, ?_⟩
    refine Option.bind_eq_some_iff.mpr ⟨_, hlocation, ?_⟩
    refine Option.bind_eq_some_iff.mpr ⟨_, hsinkType, ?_⟩
    refine Option.bind_eq_some_iff.mpr ⟨_, hsinkCode, ?_⟩
    refine Option.bind_eq_some_iff.mpr ⟨_, hslices, ?_⟩
    refine Option.bind_eq_some_iff.mpr ⟨_, hreachability, ?_⟩
    cases flow
    cases isPartial with
    | none => cases hpartial; rfl
    | some isPartial => exact Option.bind_eq_some_iff.mpr ⟨_, hpartial, rfl⟩

theorem WellFormed.ofJson?_toJson {flow : Flow} (h : flow.WellFormed) :
    ofJson? flow.toJson = some flow := by
  -- a flow that is not partial has no such field
  have hrecord : flow.toJson.record? keys = some [some (.text flow.webpage),
      some (.text flow.script), some flow.types.toJson, some (.ofNat flow.node),
      some (.ofNat flow.statement), some (.text flow.location), some (.text flow.sinkType),
      some (.text flow.sinkCode), some flow.slices.toJson, some flow.reachability.toJson,
      if flow.isPartial then some (.flag true) else none] := by
    rw [toJson]
    cases flow.isPartial <;> rfl
  have hpartial : (if flow.isPartial then some (.flag true) else none).elim (some false) Json.flag? =
      some flow.isPartial := by
    cases flow.isPartial <;> rfl
  exact ofJson?_eq_some.mpr ⟨_, _, _, _, _, _, _, _, _, _, _, hrecord, rfl, rfl,
    h.types.ofJson?_toJson, Json.word?_ofNat h.node, Json.word?_ofNat h.statement, rfl, rfl, rfl,
    SliceTable.ofJson?_toJson h.slices, h.reachability.ofJson?_toJson, hpartial⟩

theorem wellFormed_of_ofJson? {json : Json} {flow : Flow} (h : ofJson? json = some flow) :
    flow.WellFormed := by
  obtain ⟨_, _, types, node, statement, _, _, _, slices, reachability, _, -, -, -, htypes, hnode,
    hstatement, -, -, -, hslices, hreachability, -⟩ := ofJson?_eq_some.mp h
  exact {
    types := TypeSet.absorbs_of_ofJson? htypes
    node := Json.lt_of_word? hnode
    statement := Json.lt_of_word? hstatement
    slices := fun entry he => SliceTable.wellFormed_of_ofJson? hslices he
    reachability := Reachability.wellFormed_of_ofJson? hreachability }

theorem plain_toJson (flow : Flow) : Json.Plain flow.toJson := by
  refine .object ?_
  cases flow.isPartial <;>
    simp [Json.Plain.text, Json.Plain.integer, Json.Plain.flag, Json.ofNat, TypeSet.plain_toJson,
      SliceTable.plain_toJson, Reachability.plain_toJson]

end Flow

namespace Report

def WellFormed (report : Report) : Prop := ∀ flow ∈ report.flows, flow.WellFormed

instance (report : Report) : Decidable report.WellFormed :=
  inferInstanceAs (Decidable (∀ flow ∈ report.flows, flow.WellFormed))

theorem ofJson?_eq_some {json : Json} {report : Report} : ofJson? json = some report ↔
    ∃ url flows, json.record? ["url", "flows"] = some [some url, some flows] ∧
      url.text? = some report.url ∧ flows.list? Flow.ofJson? = some report.flows := by
  constructor
  · intro h
    obtain ⟨parts, hparts, h⟩ := Option.bind_eq_some_iff.mp h
    split at h
    · obtain ⟨url, hurl, h⟩ := Option.bind_eq_some_iff.mp h
      obtain ⟨flows, hflows, h⟩ := Option.bind_eq_some_iff.mp h
      cases h
      exact ⟨_, _, hparts, hurl, hflows⟩
    · cases h
  · rintro ⟨url, flows, hparts, hurl, hflows⟩
    simp [ofJson?, hparts, hurl, hflows]

theorem WellFormed.ofJson?_toJson {report : Report} (h : report.WellFormed) :
    ofJson? report.toJson = some report :=
  ofJson?_eq_some.mpr ⟨_, _, rfl, rfl,
    Json.mapM_map fun flow hf => (h flow hf).ofJson?_toJson⟩

theorem plain_toJson (report : Report) : Json.Plain report.toJson :=
  .object (by simp [Json.Plain.text, Json.plain_map Flow.plain_toJson])

theorem WellFormed.read_jsonText {report : Report} (h : report.WellFormed) :
    read report.jsonText = .ok report :=
  Json.readAs_eq_ok.mpr ⟨_, Json.read_pretty report.plain_toJson, h.ofJson?_toJson⟩

theorem wellFormed_of_read {s : String} {report : Report} (h : read s = .ok report) :
    report.WellFormed := by
  obtain ⟨json, -, hjson⟩ := Json.readAs_eq_ok.mp h
  obtain ⟨url, flows, -, -, hflows⟩ := ofJson?_eq_some.mp hjson
  intro flow hf
  obtain ⟨item, hitem⟩ := Json.exists_of_mem_list? hflows hf
  exact Flow.wellFormed_of_ofJson? hitem

/-- A stored report is read back as it was, and stored again with the same text. Whatever was read
is a report of this kind: `NON_REACH` stands alone in its sets of types, and none of its lists of
witnesses is empty. -/
theorem json_roundTrip (report : Report) :
    (report.WellFormed → read report.jsonText = .ok report ∧
      ∀ back, read report.jsonText = .ok back → back.jsonText = report.jsonText) ∧
    ∀ s, read s = .ok report → report.WellFormed := by
  refine ⟨fun h => ⟨h.read_jsonText, fun back hback => ?_⟩, fun s => wellFormed_of_read⟩
  rw [h.read_jsonText] at hback
  cases hback
  rfl

/-- A report whose texts need every way of writing a character, with numbers up to the bound. -/
def awkward : Report where
  url := "a\"b\\c\n\x01\x7f é😀"
  flows := [
    { webpage := "\t", script := "", types := .ofList [.wrReqUrl, .rdCookie],
      node := wordBound - 1, statement := 0, location := "1:2", sinkType := "fetch",
      sinkCode := "fetch(\"\\u0041\")", isPartial := true,
      slices := .ofList [("y", ⟨.nonReach, []⟩), ("x", ⟨{}, [⟨wordBound - 1, "\r", "\x08\x0c\x1f"⟩]⟩)],
      reachability := .witnesses [⟨0, wordBound - 1, "/"⟩] },
    { webpage := "", script := "", types := .nonReach, node := 1, statement := 1, location := "",
      sinkType := "", sinkCode := "", slices := {}, reachability := .unreachable }]

/-- A report as a list of its parts, with a set that is not as it would be written. -/
def positional : String :=
  "[\"\\u0041\", [[\"\", \"\", [\"NON_REACH\", \"RD_COOKIE\"], 1, 2, \"\", \"\", \"\", \x7b\x7d, [[3, 4, \"\"]]]]]"

theorem json_roundTrip_awkward :
    (awkward.WellFormed ∧ read awkward.jsonText = .ok awkward) ∧
    ∃ report, read positional = .ok report ∧ report.WellFormed ∧
      report.flows.map (·.types.types) = [[.rdCookie]] := by
  have hread : read positional = .ok
      { url := "A"
        flows := [{ webpage := "", script := "", types := .ofList [.rdCookie], node := 1,
                    statement := 2, location := "", sinkType := "", sinkCode := "", slices := {},
                    reachability := .witnesses [⟨3, 4, ""⟩] }] } := by decide +kernel
  have hform : awkward.WellFormed := by decide +kernel
  exact ⟨⟨hform, ((json_roundTrip awkward).1 hform).1⟩, _, hread,
    (json_roundTrip _).2 _ hread, by decide⟩

end Report

end RequestFlow

/-
Names that injected markup can clobber, and the code that is tagged for them. A
dotted name is searched between two word edges. Its first character is of a
word, so that none may stand before it; its last one may be `$`, which is of a
name but of no word, and then a word has to follow. A name that ends in `$` is
therefore not found where it stands alone. A name so long that its pattern is
too large is not searched for at all.
-/
import Mathlib.Data.List.Basic
import RequestFlow.Proofs.Semantic.Tags
import RequestFlow.Proofs.Text

namespace RequestFlow

/-! ## Places of a text -/

namespace Place

/-- The place between two parts of a text. -/
def between (before after : List Char) : Place := ⟨before.length, before.getLast?, after⟩

/-- The place behind a text, if that comes next. -/
def skip? (place : Place) : List Char → Option Place
  | [] => some place
  | c :: s => (place.next? (.one c)).bind (·.skip? s)

theorem next?_between {before after : List Char} {c : Char} {place : Place} :
    (between before after).next? (.one c) = some place ↔
      ∃ rest, after = c :: rest ∧ place = between (before ++ [c]) rest := by
  cases after with
  | nil => simp [between, next?]
  | cons d rest =>
    by_cases hd : d = c
    · simp [between, next?, CharSet.contains, hd, eq_comm]
    · simp [between, next?, CharSet.contains, hd]

theorem skip?_between {before after s : List Char} {place : Place} :
    (between before after).skip? s = some place ↔
      ∃ rest, after = s ++ rest ∧ place = between (before ++ s) rest := by
  induction s generalizing before after with
  | nil => simp [skip?, eq_comm]
  | cons c s ih =>
    simp only [skip?, Option.bind_eq_some_iff, next?_between]
    constructor
    · rintro ⟨_, ⟨rest, rfl, rfl⟩, hskip⟩
      obtain ⟨last, rfl, rfl⟩ := ih.mp hskip
      exact ⟨last, rfl, by rw [List.append_assoc, List.singleton_append]⟩
    · rintro ⟨last, rfl, rfl⟩
      refine ⟨_, ⟨s ++ last, rfl, rfl⟩, ih.mpr ⟨last, rfl, ?_⟩⟩
      rw [List.append_assoc, List.singleton_append]

end Place

theorem Places.mem_allFrom {before s : List Char} {place : Place} :
    place ∈ allFrom before.length before.getLast? s ↔
      ∃ part rest, s = part ++ rest ∧ place = .between (before ++ part) rest := by
  induction s generalizing before with
  | nil => simp [allFrom, Place.between]
  | cons c s ih =>
    have hnext : allFrom (before.length + 1) (some c) s =
        allFrom (before ++ [c]).length (before ++ [c]).getLast? s := by simp
    rw [allFrom, List.mem_cons, hnext, ih]
    constructor
    · rintro (rfl | ⟨part, rest, rfl, rfl⟩)
      · exact ⟨[], c :: s, rfl, by rw [List.append_nil]; rfl⟩
      · exact ⟨c :: part, rest, rfl, by rw [List.append_assoc, List.singleton_append]⟩
    · rintro ⟨_ | ⟨d, part⟩, rest, hs, rfl⟩
      · left
        rw [List.append_nil, hs]
        rfl
      · obtain ⟨rfl, rfl⟩ := List.cons_eq_cons.mp hs
        exact .inr ⟨part, rest, rfl, by rw [List.append_assoc, List.singleton_append]⟩

/-- A text is cut in two at each of its places. -/
theorem Places.mem_all {text : String} {place : Place} :
    place ∈ all text ↔ ∃ before after, text.toList = before ++ after ∧
      place = .between before after :=
  @mem_allFrom [] text.toList place

/-! ## Texts as patterns -/

namespace Pattern

theorem ends_literal (s : List Char) (places : Places) :
    (literal s).ends places = places.filterMap (·.skip? s) := by
  fun_induction literal s generalizing places with
  | case1 => exact (List.filterMap_some ..).symm
  | case2 c => simp [ends, Place.skip?]
  | case3 c rest hne ih =>
    rw [ends, ih, ends, List.filterMap_filterMap]
    rfl

/-- A text occurs as a whole word, or as several, where there is a word edge before it and one
behind it. -/
theorem occursIn_whole_text {s code : String} :
    (whole (text s)).occursIn code = true ↔
      ∃ before after, code.toList = before ++ s.toList ++ after ∧
        (Place.between before (s.toList ++ after)).atWordEdge = true ∧
        (Place.between (before ++ s.toList) after).atWordEdge = true := by
  have hends : (whole (text s)).ends (Places.all code) =
      ((((Places.all code).filter (·.atWordEdge)).filterMap (·.skip? s.toList)).filter
        (·.atWordEdge)) := by
    rw [← ends_literal]
    rfl
  rw [occursIn, hends, Bool.not_eq_true', ← Bool.not_eq_true, List.isEmpty_iff]
  constructor
  · intro hne
    obtain ⟨last, hlast⟩ := List.exists_mem_of_ne_nil _ hne
    obtain ⟨hlast, hbehind⟩ := List.mem_filter.mp hlast
    obtain ⟨first, hfirst, hskip⟩ := List.mem_filterMap.mp hlast
    obtain ⟨hfirst, hfront⟩ := List.mem_filter.mp hfirst
    obtain ⟨before, _, hcode, rfl⟩ := Places.mem_all.mp hfirst
    obtain ⟨after, rfl, rfl⟩ := Place.skip?_between.mp hskip
    exact ⟨before, after, by rw [hcode, List.append_assoc], hfront, hbehind⟩
  · rintro ⟨before, after, hcode, hfront, hbehind⟩
    rw [List.append_assoc] at hcode
    have hfirst := List.mem_filter.mpr ⟨Places.mem_all.mpr ⟨_, _, hcode, rfl⟩, hfront⟩
    have hskip : (Place.between before (s.toList ++ after)).skip? s.toList =
        some (.between (before ++ s.toList) after) := Place.skip?_between.mpr ⟨after, rfl, rfl⟩
    exact List.ne_nil_of_mem
      (List.mem_filter.mpr ⟨List.mem_filterMap.mpr ⟨_, hfirst, hskip⟩, hbehind⟩)

/-! ## The size of a text -/

/-- The longest text of ASCII characters that is searched for between word edges. -/
def longestText : Nat := 327671

theorem isAnchored_literal (d : Direction) (s : List Char) : (literal s).isAnchored d = false := by
  fun_induction literal s with
  | case1 | case2 => cases d <;> rfl
  | case3 c rest hne ih => cases d <;> simp [isAnchored, isEdge, ih]

theorem isPlain_literal (s : List Char) : (literal s).isPlain = true := by
  fun_induction literal s with
  | case1 => rfl
  | case2 c => simp [isPlain, CharSet.ranges]
  | case3 c rest hne ih => simp [isPlain, CharSet.ranges, ih]

theorem Tally.add_add (tally : Tally) (states more : Nat) :
    (tally.add states 0).add more 0 = tally.add (states + more) 0 := by
  simp [add, Nat.add_assoc]

theorem Tally.isOver_iff {tally : Tally} : tally.isOver = true ↔ limit < tally.bytes :=
  decide_eq_true_iff

theorem Tally.isOver_add {tally : Tally} (h : tally.isOver = true) (more : Nat) :
    (tally.add more 0).isOver = true := by
  rw [isOver_iff] at h ⊢
  simp only [bytes, add] at h ⊢
  omega

/-- Where the state is left out, the automaton is too large with it or without it. -/
theorem isOver_measure_one {c : Char} (hc : c.toNat < 0x80) (tally : Tally) (more : Nat) :
    (((set (.one c)).measure tally).add more 0).isOver = (tally.add (1 + more) 0).isOver := by
  have hone : (set (.one c)).measure tally = if tally.isOver then tally else tally.add 1 0 := by
    simp [measure, Tally.addSet, CharSet.ranges, ByteRange.encode, hc]
  rw [hone]
  split
  · next hover => rw [Tally.isOver_add hover, Tally.isOver_add hover]
  · rw [Tally.add_add]

/-- Each character of ASCII takes a state. -/
theorem isOver_measure_literal {s : List Char} (hs : s ≠ []) (hascii : ∀ c ∈ s, c.toNat < 0x80)
    (tally : Tally) (more : Nat) :
    (((literal s).measure tally).add more 0).isOver = (tally.add (s.length + more) 0).isOver := by
  fun_induction literal s generalizing more with
  | case1 => exact absurd rfl hs
  | case2 c => exact isOver_measure_one (hascii c List.mem_cons_self) tally more
  | case3 c rest hne ih =>
    have hrest : ∀ d ∈ rest, d.toNat < 0x80 := fun d hd => hascii d (List.mem_cons_of_mem _ hd)
    rw [measure, isOver_measure_one (hascii c List.mem_cons_self), ih hne hrest, List.length_cons,
      Nat.add_assoc]

theorem isTooLarge_whole_text {s : String} (hs : s.toList ≠ [])
    (hascii : ∀ c ∈ s.toList, c.toNat < 0x80) :
    (whole (text s)).isTooLarge = false ↔ s.length ≤ longestText := by
  have hanchored (d : Direction) : (whole (text s)).isAnchored d = false := by
    cases d <;> simp [whole, text, HAppend.hAppend, isAnchored, isEdge, isAnchored_literal]
  have hplain : (whole (text s)).isPlain = true := by
    simp [whole, text, HAppend.hAppend, isPlain, isPlain_literal]
  have hmeasure (tally : Tally) : (whole (text s)).measure tally =
      ((literal s.toList).measure (tally.add 1 0)).add 1 0 := by
    simp [whole, text, HAppend.hAppend, measure]
  -- A state for each character and one for each word edge, in both directions.
  have hover (d : Direction) : ((whole (text s)).automaton d).isOver = true ↔
      Tally.limit < (Tally.add ⟨3, 16⟩ (1 + (s.length + (1 + d.final))) 0).bytes := by
    rw [automaton, hanchored, hmeasure, Tally.add_add, isOver_measure_literal hs hascii, Tally.add_add,
      Tally.isOver_iff]
    rfl
  rw [isTooLarge, hplain, Bool.true_and, ← Bool.not_eq_true, Bool.or_eq_true, hover, hover]
  simp only [Tally.bytes, Tally.add, Tally.limit, longestText, Direction.final]
  omega

end Pattern

/-! ## Names -/

/-- A letter or digit of ASCII, `_` or `$`. -/
def isNameChar (c : Char) : Bool := c.isAlphanum || c == '_' || c == '$'

structure IsName (n : String) : Prop where
  ne_nil : n.toList ≠ []
  all : n.toList.all isNameChar = true

theorem IsName.chars {n : String} (hn : IsName n) : ∀ c ∈ n.toList, isNameChar c = true :=
  List.all_eq_true.mp hn.all

theorem toNat_lt_of_isNameChar {c : Char} (hc : isNameChar c = true) : c.toNat < 0x80 := by
  simp only [isNameChar, Bool.or_eq_true, beq_iff_eq] at hc
  rcases hc with (hc | rfl) | rfl
  · have hvals : (decide (65 ≤ c.val ∧ c.val ≤ 90) || (decide (97 ≤ c.val) && decide (c.val ≤ 122)) ||
        (decide (48 ≤ c.val) && decide (c.val ≤ 57))) = true := hc
    have hranges : (65 ≤ c.toNat ∧ c.toNat ≤ 90 ∨ 97 ≤ c.toNat ∧ c.toNat ≤ 122) ∨
        48 ≤ c.toNat ∧ c.toNat ≤ 57 := by
      simpa [UInt32.le_iff_toNat_le] using hvals
    omega
  · decide
  · decide

theorem isBlank_of_isNameChar {c : Char} (hc : isNameChar c = true) : isBlank c = false := by
  have hascii : ∀ n < 0x80, isNameChar (Char.ofNat n) = true → isBlank (Char.ofNat n) = false := by
    decide +kernel
  have hblank := hascii c.toNat (toNat_lt_of_isNameChar hc)
  rw [Char.ofNat_toNat] at hblank
  exact hblank hc

/-- All characters of names but `$` are of words. -/
theorem isWord_iff_of_isNameChar {c : Char} (hc : isNameChar c = true) :
    isWord c = true ↔ c ≠ '$' := by
  rw [isWord, if_pos (toNat_lt_of_isNameChar hc)]
  by_cases hd : c = '$'
  · subst hd
    decide
  · simpa [isNameChar, hd] using hc

/-- A character that neither a name nor a word can have. -/
def isOutside (c : Char) : Bool := !isNameChar c && !isWord c

theorem any_isWord_of_all_isOutside {c? : Option Char} (h : c?.all isOutside = true) :
    c?.any isWord = false := by
  cases c? with
  | none => rfl
  | some c => simpa [isOutside] using (Bool.and_eq_true_iff.mp h).2

/-- The name stands in the code, with no character of a name or of a word next to it. -/
def StandsAlone (name code : String) : Prop :=
  ∃ before after, code.toList = before ++ name.toList ++ after ∧
    before.getLast?.all isOutside = true ∧ after.head?.all isOutside = true

/-! ## Dotted names -/

/-- The objects whose properties injected markup can clobber. -/
inductive Holder where
  | window
  | document

namespace Holder

def type : Holder → SemanticType
  | window => .domclobWin
  | document => .domclobDoc

def head : Holder → String
  | window => "window."
  | document => "document."

/-- A name as a property of the object. -/
def dotted (holder : Holder) (n : String) : String := holder.head ++ n

theorem type_ne_nonReach (holder : Holder) : holder.type ≠ .nonReach := by
  cases holder <;> decide

theorem head?_dotted (holder : Holder) (n : String) (rest : List Char) :
    ((holder.dotted n).toList ++ rest).head?.any isWord = true := by
  rw [dotted, String.toList_append]
  cases holder with
  | window => exact (by decide : isWord 'w' = true)
  | document => exact (by decide : isWord 'd' = true)

theorem getLast?_dotted (holder : Holder) {n : String} (hn : IsName n) (before : List Char) :
    (before ++ (holder.dotted n).toList).getLast? = n.toList.getLast? := by
  rw [dotted, String.toList_append, ← List.append_assoc,
    List.getLast?_append_of_ne_nil _ hn.ne_nil]

theorem trim_dotted (holder : Holder) {n : String} (hn : IsName n) :
    Text.trim (holder.dotted n) = holder.dotted n := by
  have hhead : holder.head.toList.all (!isBlank ·) = true := by
    cases holder <;> decide
  have hchars : ∀ c ∈ (holder.dotted n).toList, isBlank c = false := by
    intro c hc
    rw [dotted, String.toList_append] at hc
    rcases List.mem_append.mp hc with hc | hc
    · exact (Bool.not_eq_true' _).mp (List.all_eq_true.mp hhead c hc)
    · exact isBlank_of_isNameChar (hn.chars c hc)
  rw [Text.trim, Chars.trim_of_forall hchars, String.ofList_toList]

end Holder

namespace Fingerprints

open Pattern (text whole)

variable {f : Fingerprints} {n code : String} {holder : Holder}

theorem mem_typesOf_append {type type' : SemanticType} {mark : Mark} {extra : List String}
    {tagged : Tagged} :
    type ∈ ({ f with table := f.table ++ [⟨type', mark⟩] } : Fingerprints).typesOf extra tagged ↔
      type ∈ f.typesOf extra tagged ∨ type = type' ∧ mark.fits tagged = true := by
  have hnew : type ∈ ([⟨type', mark⟩].filter fun print : Fingerprint =>
      print.mark.fits tagged).map (·.type) ↔ type = type' ∧ mark.fits tagged = true := by
    cases hfits : mark.fits tagged <;> simp [hfits]
  simp only [typesOf, List.filter_append, List.map_append, List.mem_append, hnew]
  exact or_right_comm

theorem mem_typesOf_addPattern {type type' : SemanticType} {p : Pattern} {extra : List String} :
    type ∈ (f.addPattern type' p).typesOf extra (.code code) ↔ type ∈ f.typesOf extra (.code code) ∨
      type = type' ∧ p.isTooLarge = false ∧ p.occursIn code = true := by
  unfold addPattern
  split
  · next hlarge => simp [hlarge]
  · next hlarge => exact mem_typesOf_append.trans (by simp [hlarge, Mark.fits])

/-- A name of its own is looked for among names, never in code. -/
theorem mem_typesOf_addName {type type' : SemanticType} {name : String} {extra : List String} :
    type ∈ (f.addName type' name).typesOf extra (.code code) ↔
      type ∈ f.typesOf extra (.code code) := by
  unfold addName
  split
  · exact Iff.rfl
  · exact mem_typesOf_append.trans (by simp [Mark.fits])

/-- Code is tagged for a name where the dotted name is found, if it is not too long to search for. -/
theorem addClobbered_tags (hn : IsName n) :
    holder.type ∈ ((f.addClobbered (holder.dotted n)).tagCode code).types ↔
      holder.type ∈ (f.tagCode code).types ∨ (whole (text (holder.dotted n))).isTooLarge = false ∧
        (whole (text (holder.dotted n))).occursIn code = true := by
  rw [mem_tagCode holder.type_ne_nonReach, mem_tagCode holder.type_ne_nonReach]
  simp only [addClobbered, holder.trim_dotted hn]
  cases holder with
  | window =>
    have hdocument : Text.after? "document." (Holder.window.dotted n) = none := by
      rw [Text.after?, Holder.dotted, String.toList_append]
      rfl
    have hwindow : Text.after? "window." (Holder.window.dotted n) = some n :=
      Text.after?_append "window." n
    simp only [hdocument, hwindow, Option.getD_some]
    rw [mem_typesOf_addName, mem_typesOf_addPattern]
    simp only [Holder.type, Holder.dotted, Holder.head, true_and]
  | document =>
    have hdocument : Text.after? "document." (Holder.document.dotted n) = some n :=
      Text.after?_append "document." n
    simp only [hdocument]
    rw [mem_typesOf_addPattern]
    simp only [Holder.type, Holder.dotted, Holder.head, true_and]

/-- Code is tagged for no name as long as none is registered. -/
theorem notMem_tagCode_defaults (holder : Holder) (code : String) :
    holder.type ∉ (defaults.tagCode code).types := by
  have htable : ∀ print ∈ defaults.table, print.type ≠ holder.type := by
    cases holder <;> decide
  rw [mem_tagCode holder.type_ne_nonReach]
  intro h
  rcases List.mem_append.mp h with h | h
  · obtain ⟨print, hprint, htype⟩ := List.mem_map.mp h
    exact htable print (List.mem_filter.mp hprint).1 htype
  · exact List.not_mem_nil h

/-- A dotted name is found where no word ends before it, and where a word starts behind it if it
ends in `$`, and none otherwise. -/
theorem occursIn_dotted (hn : IsName n) :
    (whole (text (holder.dotted n))).occursIn code = true ↔
      ∃ before after, code.toList = before ++ (holder.dotted n).toList ++ after ∧
        before.getLast?.any isWord = false ∧
        (after.head?.any isWord = true ↔ n.toList.getLast? = some '$') := by
  rw [Pattern.occursIn_whole_text]
  refine exists_congr fun before => exists_congr fun after => and_congr_right fun _ => ?_
  refine and_congr ?_ ?_
  · rw [Place.between, Place.atWordEdge, holder.head?_dotted]
    simp
  · have hlast := List.getLast?_eq_some_getLast hn.ne_nil
    have hword := isWord_iff_of_isNameChar (hn.chars _ (List.getLast_mem hn.ne_nil))
    rw [Place.between, Place.atWordEdge, holder.getLast?_dotted hn, hlast, Option.any_some,
      Option.some_inj]
    -- exactly one of the two characters is of a word
    cases hfollows : after.head?.any isWord with
    | true => simpa using not_congr hword
    | false => simpa using hword

theorem occursIn_dotted_of_standsAlone (hn : IsName n) (hlast : n.toList.getLast? ≠ some '$')
    (hc : StandsAlone (holder.dotted n) code) :
    (whole (text (holder.dotted n))).occursIn code = true := by
  obtain ⟨before, after, hcode, hbefore, hafter⟩ := hc
  refine (occursIn_dotted hn).mpr ⟨before, after, hcode, any_isWord_of_all_isOutside hbefore, ?_⟩
  rw [any_isWord_of_all_isOutside hafter]
  simp [hlast]

/-- A dotted name is searched for if it is not too long. -/
theorem isTooLarge_dotted (hn : IsName n) :
    (whole (text (holder.dotted n))).isTooLarge = false ↔
      (holder.dotted n).length ≤ Pattern.longestText := by
  refine Pattern.isTooLarge_whole_text (fun hnil => ?_) fun c hc => ?_
  · have hhead := holder.head?_dotted n []
    rw [hnil] at hhead
    cases hhead
  · have hascii : holder.head.toList.all (·.toNat < 0x80) = true := by cases holder <;> decide
    rw [Holder.dotted, String.toList_append] at hc
    rcases List.mem_append.mp hc with hc | hc
    · exact of_decide_eq_true (List.all_eq_true.mp hascii c hc)
    · exact toNat_lt_of_isNameChar (hn.chars c hc)

/-- **The code that is tagged for a clobbered name.** Code has the type of a registered name where
the dotted name has no word character before it, and behind it one exactly if the name ends in `$`,
unless the name is too long to be searched for. A name with another end, and not too long, is found
wherever it stands alone. -/
theorem mem_tagCode_addClobbered (hn : IsName n) (f : Fingerprints) (holder : Holder)
    (code : String) :
    (holder.type ∈ ((f.addClobbered (holder.dotted n)).tagCode code).types ↔
      holder.type ∈ (f.tagCode code).types ∨ (holder.dotted n).length ≤ Pattern.longestText ∧
        ∃ before after, code.toList = before ++ (holder.dotted n).toList ++ after ∧
          before.getLast?.any isWord = false ∧
          (after.head?.any isWord = true ↔ n.toList.getLast? = some '$')) ∧
    ((holder.dotted n).length ≤ Pattern.longestText → n.toList.getLast? ≠ some '$' →
      StandsAlone (holder.dotted n) code →
      holder.type ∈ ((f.addClobbered (holder.dotted n)).tagCode code).types) := by
  refine ⟨?_, fun hlength hlast hc => ?_⟩
  · exact (addClobbered_tags hn).trans
      (or_congr_right (and_congr (isTooLarge_dotted hn) (occursIn_dotted hn)))
  · exact (addClobbered_tags hn).mpr (.inr
      ⟨(isTooLarge_dotted hn).mpr hlength, occursIn_dotted_of_standsAlone hn hlast hc⟩)

theorem mem_tagCode_addClobbered_element :
    IsName "$el_1" ∧ StandsAlone "document.$el_1" "send(document.$el_1)" ∧
      .domclobDoc ∈ ((defaults.addClobbered "document.$el_1").tagCode
        "send(document.$el_1)").types := by
  have hn : IsName "$el_1" := ⟨by decide, by decide⟩
  have hc : StandsAlone (Holder.document.dotted "$el_1") "send(document.$el_1)" :=
    ⟨"send(".toList, ")".toList, by decide, by decide, by decide⟩
  exact ⟨hn, hc, (mem_tagCode_addClobbered hn defaults .document _).2 (by decide) (by decide) hc⟩

/-- The name `$` stands alone in the code and is not found, for no word follows it. -/
theorem notMem_tagCode_dollar :
    IsName "$" ∧ StandsAlone "window.$" "window.$" ∧
      .domclobWin ∉ ((defaults.addClobbered "window.$").tagCode "window.$").types := by
  have hn : IsName "$" := ⟨by decide, by decide⟩
  have hc : StandsAlone "window.$" "window.$" := ⟨[], [], by decide, rfl, rfl⟩
  refine ⟨hn, hc, fun h => ?_⟩
  rcases (@addClobbered_tags defaults "$" "window.$" .window hn).mp h with h | h
  · exact notMem_tagCode_defaults .window _ h
  · exact absurd h.2 (by decide)

end Fingerprints

end RequestFlow

/-
The types of slices. Tagging a list of slices is a union in which "nothing found"
stands alone: it depends on which slices are there, not on their order or on how
often they occur, and a set of types on what was inserted, not on when.
-/
import RequestFlow.Proofs.Semantic.TypeSet
import RequestFlow.Semantic.Fingerprint

namespace RequestFlow

/-! ## Putting sets together -/

namespace TypeSet

/-- How a set of types is put together. -/
inductive Assembly where
  | empty
  | insert (a : Assembly) (type : SemanticType)
  | union (a b : Assembly)
  deriving DecidableEq, Repr

namespace Assembly

def set : Assembly → TypeSet
  | empty => {}
  | insert a type => a.set.insert type
  | union a b => a.set.union b.set

/-- All types that are inserted somewhere. -/
def types : Assembly → List SemanticType
  | empty => []
  | insert a type => type :: a.types
  | union a b => a.types ++ b.types

theorem set_absorbs (a : Assembly) : a.set.Absorbs := by
  induction a with
  | empty => exact fun hn => absurd hn List.not_mem_nil
  | insert a type => exact insert_absorbs _ _
  | union a b iha _ => exact iha.union

/-- What was inserted is there, `NON_REACH` only if nothing else was. -/
theorem mem_set (a : Assembly) {t : SemanticType} :
    t ∈ a.set.types ↔ t ∈ a.types ∧ (t = .nonReach → ∀ u ∈ a.types, u = .nonReach) := by
  induction a generalizing t with
  | empty => exact iff_of_false List.not_mem_nil fun h => List.not_mem_nil h.1
  | insert a type ih =>
    simp only [set, types, mem_insert, mem_place, ih, List.mem_cons]
    grind
  | union a b iha ihb =>
    rw [set, TypeSet.union, a.set_absorbs.mem_insertAll]
    simp only [types, List.mem_append, iha, ihb]
    grind

/-- Neither the order of insertions nor how they are grouped matters. -/
theorem set_eq {a b : Assembly} (h : ∀ t, t ∈ a.types ↔ t ∈ b.types) : a.set = b.set := by
  refine eq_of_mem_iff fun t => ?_
  simp only [mem_set, h]

end Assembly

end TypeSet

/-! ## Tagging slices -/

namespace Fingerprints

variable {f : Fingerprints} {extra : List String}

section Other

variable {type : SemanticType} (ht : type ≠ .nonReach)
include ht

theorem mem_tagCode {code : String} :
    type ∈ (f.tagCode code).types ↔ type ∈ f.typesOf [] (.code code) := by
  rw [tagCode, TypeSet.mem_orNonReach_of_ne ht, TypeSet.mem_ofList_of_ne ht]

/-- A slice has the types that its code gives, and those that its names give. -/
theorem mem_tagSlice {slice : Slice} :
    type ∈ (f.tagSlice slice extra).types ↔ type ∈ f.typesOf extra (.code slice.code) ∨
      ∃ name ∈ slice.identifiers, type ∈ f.typesOf extra (.name name) := by
  rw [tagSlice, TypeSet.mem_orNonReach_of_ne ht, TypeSet.mem_ofList_of_ne ht, List.flatMap_cons,
    List.mem_append]
  simp only [List.mem_flatMap, List.mem_map, exists_exists_and_eq_and]

theorem mem_foldl_union {slices : List Slice} {set : TypeSet} :
    type ∈ (slices.foldl (fun (types : TypeSet) slice => types.union (f.tagSlice slice extra))
        set).types ↔
      type ∈ set.types ∨ ∃ slice ∈ slices, type ∈ (f.tagSlice slice extra).types := by
  induction slices generalizing set with
  | nil => simp
  | cons slice slices ih =>
    rw [List.foldl_cons, ih, TypeSet.mem_union_of_ne ht, or_assoc]
    simp only [List.mem_cons, exists_eq_or_imp]

/-- Slices have the types that one of them has. -/
theorem mem_tagSlices {slices : List Slice} :
    type ∈ (f.tagSlices slices extra).types ↔
      ∃ slice ∈ slices, type ∈ (f.tagSlice slice extra).types := by
  rw [tagSlices, TypeSet.mem_orNonReach_of_ne ht, mem_foldl_union ht]
  exact or_iff_right List.not_mem_nil

end Other

theorem tagSlices_absorbs (f : Fingerprints) (slices : List Slice) (extra : List String) :
    (f.tagSlices slices extra).Absorbs := by
  refine TypeSet.Absorbs.orNonReach ?_
  refine List.foldlRecOn slices _ (fun hn => absurd hn List.not_mem_nil) ?_
  exact fun set hs slice _ => hs.union

/-- Slices are tagged alike if they have the same types other than `NON_REACH`. -/
theorem eq_tagSlices {slices : List Slice} {set : TypeSet} (ha : set.Absorbs)
    (hne : set.types ≠ []) (h : ∀ t ≠ .nonReach,
      (t ∈ set.types ↔ ∃ slice ∈ slices, t ∈ (f.tagSlice slice extra).types)) :
    set = f.tagSlices slices extra :=
  ha.eq_of_mem_iff_of_ne (f.tagSlices_absorbs slices extra) hne
    (TypeSet.orNonReach_types_ne_nil _) fun t ht => (h t ht).trans (mem_tagSlices ht).symm

/-- Tagging slices is a union in which `NON_REACH` stands alone. -/
structure TagsByUnion (f : Fingerprints) (extra : List String) : Prop where
  append (xs ys : List Slice) :
    f.tagSlices (xs ++ ys) extra = (f.tagSlices xs extra).union (f.tagSlices ys extra)
  /-- `NON_REACH` is dropped unless nothing else is present. -/
  mem_append (xs ys : List Slice) (t : SemanticType) :
    t ∈ (f.tagSlices (xs ++ ys) extra).types ↔
      t ∈ (f.tagSlices xs extra).types ++ (f.tagSlices ys extra).types ∧
        (t = .nonReach →
          ∀ u ∈ (f.tagSlices xs extra).types ++ (f.tagSlices ys extra).types, u = .nonReach)
  /-- Neither the order of slices nor how often they occur matters. -/
  same (xs ys : List Slice) :
    (∀ slice, slice ∈ xs ↔ slice ∈ ys) → f.tagSlices xs extra = f.tagSlices ys extra
  mem (slices : List Slice) (t : SemanticType) : t ≠ .nonReach →
    (t ∈ (f.tagSlices slices extra).types ↔ ∃ slice ∈ slices, t ∈ (f.tagSlice slice extra).types)
  ne_nil (slices : List Slice) : (f.tagSlices slices extra).types ≠ []
  absorbs (slices : List Slice) : (f.tagSlices slices extra).Absorbs
  /-- The types of the slices may be put together in any way. -/
  assembled (slices : List Slice) (a : TypeSet.Assembly) :
    (∀ t, t ∈ a.types ↔ ∃ slice ∈ slices, t ∈ (f.tagSlice slice extra).types) →
      f.tagSlices slices extra = a.set.orNonReach

theorem tagSlices_absorbing_union (f : Fingerprints) (extra : List String) :
    f.TagsByUnion extra ∧
      ∀ a b : TypeSet.Assembly, (∀ t, t ∈ a.types ↔ t ∈ b.types) → a.set = b.set := by
  have habsorbs := fun slices => f.tagSlices_absorbs slices extra
  have hne : ∀ slices, (f.tagSlices slices extra).types ≠ [] := fun _ =>
    TypeSet.orNonReach_types_ne_nil _
  have happend : ∀ xs ys, f.tagSlices (xs ++ ys) extra =
      (f.tagSlices xs extra).union (f.tagSlices ys extra) := by
    intro xs ys
    refine (eq_tagSlices (habsorbs xs).union ((habsorbs xs).union_ne_nil (hne xs)) ?_).symm
    intro t ht
    rw [TypeSet.mem_union_of_ne ht, mem_tagSlices ht, mem_tagSlices ht]
    simp only [List.mem_append, or_and_right, exists_or]
  refine ⟨?_, fun a b h => TypeSet.Assembly.set_eq h⟩
  refine ⟨happend, fun xs ys t => ?_, fun xs ys h => ?_, fun _ _ ht => mem_tagSlices ht, hne, habsorbs,
    fun slices a h => ?_⟩
  · rw [happend, TypeSet.union, (habsorbs xs).mem_insertAll]
  · exact eq_tagSlices (habsorbs xs) (hne xs) fun t ht => by simp only [mem_tagSlices ht, h]
  · refine (eq_tagSlices a.set_absorbs.orNonReach (TypeSet.orNonReach_types_ne_nil _) ?_).symm
    intro t ht
    rw [TypeSet.mem_orNonReach_of_ne ht, a.mem_set, h]
    exact and_iff_left fun hn => absurd hn ht

/-- A slice with a source and one without. -/
theorem tagSlices_absorbing_union_location :
    let f : Fingerprints := { table := [⟨.rdWinLoc, .name "location"⟩, ⟨.nonReach, .name "x"⟩] }
    let source : Slice := { code := "x = location", identifiers := ["x", "location"] }
    let plain : Slice := { code := "x = 1", identifiers := ["x"] }
    (f.tagSlices [plain] []).types = [.nonReach] ∧
      (f.tagSlices [source] []).types = [.rdWinLoc] ∧
      f.tagSlices [plain, source, plain] [] = f.tagSlices [source, plain] [] ∧
      f.tagSlices [source, plain] [] = (f.tagSlices [source] []).union (f.tagSlices [plain] []) ∧
      ((TypeSet.Assembly.empty.insert .nonReach).union (.insert .empty .rdWinLoc)).set =
        (((TypeSet.Assembly.empty.insert .rdWinLoc).insert .nonReach).insert .rdWinLoc).set := by
  intro f source plain
  obtain ⟨htags, hassembly⟩ := f.tagSlices_absorbing_union []
  refine ⟨by decide +kernel, by decide +kernel, htags.same _ _ ?_, htags.append [source] [plain],
    hassembly _ _ ?_⟩
  · intro slice
    simp only [List.mem_cons, List.not_mem_nil, or_false]
    grind
  · intro t
    simp only [TypeSet.Assembly.types, List.mem_append, List.mem_cons, List.not_mem_nil, or_false]
    grind

end Fingerprints

end RequestFlow

/-
Sets of types in which "nothing found" stands alone. Every set that is put
together by inserting is of that kind, and it is determined by what was inserted.
-/
import RequestFlow.Proofs.Order
import RequestFlow.Semantic.Type

namespace RequestFlow.TypeSet

variable {set other : TypeSet} {type t : SemanticType} {types : List SemanticType}

/-- `NON_REACH` does not stand beside another type. -/
def Absorbs (set : TypeSet) : Prop := .nonReach ∈ set.types → ∀ t ∈ set.types, t = .nonReach

instance : Decidable set.Absorbs := inferInstanceAs (Decidable (_ ∈ _ → _))

/-- Sets with the same members are equal: the vocabulary gives the order. -/
theorem eq_of_mem_iff (h : ∀ t, t ∈ set.types ↔ t ∈ other.types) : set = other := by
  have htypes : set.types = other.types :=
    eq_of_pairwise (fun _ _ hab hba => by omega) set.ordered other.ordered h
  cases set
  cases other
  cases htypes
  rfl

theorem types_insert (set : TypeSet) (type : SemanticType) :
    (set.insert type).types = if 1 < (place type set.types).length
      then (place type set.types).filter (· ≠ .nonReach) else place type set.types := by
  unfold insert
  dsimp only
  split <;> rfl

/-- `NON_REACH` stays only if nothing else is there. -/
theorem mem_insert : t ∈ (set.insert type).types ↔
    t ∈ place type set.types ∧ (t = .nonReach → ∀ u ∈ place type set.types, u = .nonReach) := by
  have ho : (place type set.types).Pairwise (·.index < ·.index) := place_ordered set.ordered
  rw [types_insert]
  split
  · next hlong =>
    rw [List.mem_filter]
    refine and_congr_right fun ht => ?_
    obtain ⟨a, b, rest, hl⟩ : ∃ a b rest, place type set.types = a :: b :: rest := by
      match place type set.types, hlong with
      | a :: b :: rest, _ => exact ⟨a, b, rest, rfl⟩
    have hab : a ≠ b := by
      rw [hl] at ho
      have hlt := (List.pairwise_cons.mp ho).1 b List.mem_cons_self
      rintro rfl
      omega
    have hne : ¬ ∀ u ∈ place type set.types, u = .nonReach := fun h =>
      hab ((h a (by simp [hl])).trans (h b (by simp [hl])).symm)
    simp [hne]
  · next hshort =>
    refine ⟨fun ht => ⟨ht, fun hn u hu => ?_⟩, And.left⟩
    obtain ⟨a, hl⟩ := List.length_eq_one_iff.mp
      (Nat.le_antisymm (Nat.not_lt.mp hshort) (List.length_pos_of_mem ht))
    rw [hl, List.mem_singleton] at ht hu
    rw [hu, ← ht, hn]

theorem insert_absorbs (set : TypeSet) (type : SemanticType) : (set.insert type).Absorbs :=
  fun hn u hu => (mem_insert.mp hn).2 rfl u (mem_insert.mp hu).1

/-- What a set holds after inserting types one by one. -/
theorem Absorbs.mem_insertAll (h : set.Absorbs) : t ∈ (set.insertAll types).types ↔
    t ∈ set.types ++ types ∧ (t = .nonReach → ∀ u ∈ set.types ++ types, u = .nonReach) := by
  induction types generalizing set with
  | nil =>
    rw [List.append_nil]
    exact ⟨fun ht => ⟨ht, fun hn => h (hn ▸ ht)⟩, And.left⟩
  | cons type types ih =>
    have hstep := ih (insert_absorbs set type)
    simp only [List.mem_append, mem_insert, mem_place] at hstep
    rw [insertAll, List.foldl_cons, ← insertAll, hstep]
    simp only [List.mem_append, List.mem_cons]
    grind

theorem Absorbs.insertAll (h : set.Absorbs) : (set.insertAll types).Absorbs :=
  fun hn u hu => (h.mem_insertAll.mp hn).2 rfl u (h.mem_insertAll.mp hu).1

theorem ofList_absorbs (types : List SemanticType) : (ofList types).Absorbs :=
  Absorbs.insertAll fun hn => absurd hn List.not_mem_nil

/-- A set in which `NON_REACH` stands alone is the set of its types. -/
theorem Absorbs.ofList_types (h : set.Absorbs) : ofList set.types = set := by
  refine eq_of_mem_iff fun t => ?_
  have hempty : (∅ : TypeSet).Absorbs := fun hn => absurd hn List.not_mem_nil
  rw [ofList, hempty.mem_insertAll]
  exact ⟨And.left, fun ht => ⟨ht, fun hn u hu => h (hn ▸ ht) u hu⟩⟩

theorem Absorbs.union (h : set.Absorbs) : (set.union other).Absorbs := h.insertAll

/-- A type stays, unless it is `NON_REACH` and there is another. -/
theorem Absorbs.union_ne_nil (h : set.Absorbs) (hne : set.types ≠ []) :
    (set.union other).types ≠ [] := by
  obtain ⟨t, ht⟩ := List.exists_mem_of_ne_nil _ hne
  by_cases hall : ∀ u ∈ set.types ++ other.types, u = .nonReach
  · exact List.ne_nil_of_mem (h.mem_insertAll.mpr ⟨List.mem_append_left _ ht, fun _ => hall⟩)
  · push Not at hall
    obtain ⟨u, hu, hn⟩ := hall
    exact List.ne_nil_of_mem (h.mem_insertAll.mpr ⟨hu, fun he => absurd he hn⟩)

theorem nonReach_types : nonReach.types = [.nonReach] := by decide

theorem Absorbs.orNonReach (h : set.Absorbs) : set.orNonReach.Absorbs := by
  unfold TypeSet.orNonReach
  split
  · exact ofList_absorbs _
  · exact h

theorem orNonReach_types_ne_nil (set : TypeSet) : set.orNonReach.types ≠ [] := by
  unfold orNonReach
  split
  · simp [nonReach_types]
  · next he => exact fun hn => he (List.isEmpty_iff.mpr hn)

/-- In a set that is not empty, `NON_REACH` says that there is nothing else. -/
theorem Absorbs.nonReach_mem_iff (h : set.Absorbs) (hne : set.types ≠ []) :
    .nonReach ∈ set.types ↔ ∀ t ∈ set.types, t = .nonReach := by
  refine ⟨h, fun hall => ?_⟩
  obtain ⟨t, ht⟩ := List.exists_mem_of_ne_nil _ hne
  exact hall t ht ▸ ht

/-- A set that is not empty is determined by its types other than `NON_REACH`. -/
theorem Absorbs.eq_of_mem_iff_of_ne (h : set.Absorbs) (ho : other.Absorbs) (hs : set.types ≠ [])
    (hn : other.types ≠ []) (hm : ∀ t ≠ .nonReach, (t ∈ set.types ↔ t ∈ other.types)) :
    set = other := by
  refine eq_of_mem_iff fun t => ?_
  by_cases ht : t = .nonReach
  · rw [ht, h.nonReach_mem_iff hs, ho.nonReach_mem_iff hn]
    refine forall_congr' fun u => ?_
    by_cases hu : u = .nonReach
    · simp [hu]
    · rw [hm u hu]
  · exact hm t ht

/-! ## Types other than `NON_REACH` -/

section Other

variable (ht : t ≠ .nonReach)
include ht

theorem mem_insert_of_ne : t ∈ (set.insert type).types ↔ t = type ∨ t ∈ set.types := by
  rw [mem_insert, mem_place]
  exact and_iff_left fun hn => absurd hn ht

theorem mem_insertAll_of_ne : t ∈ (set.insertAll types).types ↔ t ∈ set.types ∨ t ∈ types := by
  induction types generalizing set with
  | nil => simp [insertAll]
  | cons type types ih =>
    rw [insertAll, List.foldl_cons, ← insertAll, ih, mem_insert_of_ne ht, List.mem_cons]
    rw [or_comm (a := t = type), or_assoc]

theorem mem_union_of_ne : t ∈ (set.union other).types ↔ t ∈ set.types ∨ t ∈ other.types :=
  mem_insertAll_of_ne ht

theorem mem_ofList_of_ne : t ∈ (ofList types).types ↔ t ∈ types :=
  (mem_insertAll_of_ne ht).trans (or_iff_right List.not_mem_nil)

/-- An empty set is filled with `NON_REACH` only. -/
theorem mem_orNonReach_of_ne : t ∈ set.orNonReach.types ↔ t ∈ set.types := by
  unfold orNonReach
  split
  · next he =>
    rw [nonReach, mem_ofList_of_ne ht, List.mem_singleton, List.isEmpty_iff.mp he]
    simpa using ht
  · rfl

end Other

end RequestFlow.TypeSet

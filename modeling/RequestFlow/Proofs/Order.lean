/-
What sorting and the removal of repetitions keep.
-/
import Mathlib.Data.List.Induction
import RequestFlow.Order

namespace RequestFlow

universe u

variable {α : Type u}

theorem mem_insertBy {le : α → α → Bool} {a b : α} {l : List α} :
    b ∈ insertBy le a l ↔ b = a ∨ b ∈ l := by
  induction l with
  | nil => simp [insertBy]
  | cons c l ih =>
    rw [insertBy]
    split
    · simp
    · simp only [List.mem_cons, ih]
      exact or_left_comm

theorem mem_sortBy {le : α → α → Bool} {a : α} {l : List α} : a ∈ sortBy le l ↔ a ∈ l := by
  induction l with
  | nil => simp [sortBy]
  | cons b l ih => rw [sortBy, mem_insertBy, ih, List.mem_cons]

theorem insertBy_perm (le : α → α → Bool) (a : α) (l : List α) : (insertBy le a l).Perm (a :: l) := by
  induction l with
  | nil => exact .refl _
  | cons b l ih =>
    rw [insertBy]
    split
    · exact .refl _
    · exact (ih.cons b).trans (.swap a b l)

theorem sortBy_perm (le : α → α → Bool) (l : List α) : (sortBy le l).Perm l := by
  induction l with
  | nil => exact .refl _
  | cons a l ih => exact (insertBy_perm le a _).trans (ih.cons a)

section Sorted

variable {le : α → α → Bool}

theorem pairwise_insertBy (hle : ∀ a b, le a b = true ∨ le b a = true)
    (ht : ∀ a b c, le a b = true → le b c = true → le a c = true) {a : α} {l : List α}
    (hl : l.Pairwise (le · ·)) : (insertBy le a l).Pairwise (le · ·) := by
  induction l with
  | nil => simp [insertBy]
  | cons b l ih =>
    obtain ⟨hb, hl'⟩ := List.pairwise_cons.mp hl
    rw [insertBy]
    split
    · next hab =>
      refine List.pairwise_cons.mpr ⟨fun c hc => ?_, hl⟩
      rcases List.mem_cons.mp hc with rfl | hc
      · exact hab
      · exact ht a b c hab (hb c hc)
    · next hab =>
      refine List.pairwise_cons.mpr ⟨fun c hc => ?_, ih hl'⟩
      rcases mem_insertBy.mp hc with rfl | hc
      · exact (hle c b).resolve_left hab
      · exact hb c hc

theorem pairwise_sortBy (hle : ∀ a b, le a b = true ∨ le b a = true)
    (ht : ∀ a b c, le a b = true → le b c = true → le a c = true) (l : List α) :
    (sortBy le l).Pairwise (le · ·) := by
  induction l with
  | nil => exact .nil
  | cons a l ih => exact pairwise_insertBy hle ht ih

/-- A list in order stays as it is. -/
theorem sortBy_of_pairwise {l : List α} (hl : l.Pairwise (le · ·)) : sortBy le l = l := by
  induction l with
  | nil => rfl
  | cons a l ih =>
    obtain ⟨ha, hl⟩ := List.pairwise_cons.mp hl
    rw [sortBy, ih hl]
    cases l with
    | nil => rfl
    | cons b l => rw [insertBy, if_pos (ha b List.mem_cons_self)]

end Sorted

theorem mem_of_mem_keep {same : α → α → Bool} {a b : α} {l : List α}
    (h : b ∈ dedupNext.keep same a l) : b ∈ l := by
  induction l generalizing a with
  | nil => simp [dedupNext.keep] at h
  | cons c l ih =>
    rw [dedupNext.keep] at h
    split at h
    · exact List.mem_cons_of_mem _ (ih h)
    · rcases List.mem_cons.mp h with rfl | h
      · exact List.mem_cons_self
      · exact List.mem_cons_of_mem _ (ih h)

theorem mem_of_mem_dedupNext {same : α → α → Bool} {a : α} {l : List α}
    (h : a ∈ dedupNext same l) : a ∈ l := by
  cases l with
  | nil => exact h
  | cons b l =>
    rcases List.mem_cons.mp h with rfl | h
    · exact List.mem_cons_self
    · exact List.mem_cons_of_mem _ (mem_of_mem_keep h)

/-- Where `same` holds of one element only, nothing is lost. -/
theorem mem_keep {same : α → α → Bool} {a b : α} {l : List α}
    (hs : ∀ b ∈ a :: l, ∀ c ∈ a :: l, same b c = true → b = c) (h : b ∈ l) :
    b = a ∨ b ∈ dedupNext.keep same a l := by
  induction l generalizing a with
  | nil => cases h
  | cons c l ih =>
    have hl : ∀ b ∈ c :: l, ∀ d ∈ c :: l, same b d = true → b = d :=
      fun b hb d hd => hs b (List.mem_cons_of_mem _ hb) d (List.mem_cons_of_mem _ hd)
    rw [dedupNext.keep]
    split
    · next hc =>
      obtain rfl : c = a := hs c (by simp) a List.mem_cons_self hc
      rcases List.mem_cons.mp h with rfl | h
      · exact .inl rfl
      · exact ih hl h
    · rcases List.mem_cons.mp h with rfl | h
      · exact .inr List.mem_cons_self
      · exact .inr (List.mem_cons.mpr (ih hl h))

theorem mem_dedupNext {same : α → α → Bool} {a : α} {l : List α}
    (hs : ∀ b ∈ l, ∀ c ∈ l, same b c = true → b = c) : a ∈ dedupNext same l ↔ a ∈ l := by
  refine ⟨mem_of_mem_dedupNext, fun h => ?_⟩
  cases l with
  | nil => exact h
  | cons b l =>
    rcases List.mem_cons.mp h with rfl | h
    · exact List.mem_cons_self
    · exact List.mem_cons.mpr (mem_keep hs h)

section Strict

variable {le same : α → α → Bool} {lt : α → α → Prop}
  (hlt : ∀ a b, le a b = true → same b a = false → lt a b)
  (ht : ∀ a b c, lt a b → le b c = true → lt a c)
include hlt ht

theorem pairwise_keep {a : α} {l : List α} (hl : (a :: l).Pairwise (le · ·)) :
    (a :: dedupNext.keep same a l).Pairwise lt := by
  induction l generalizing a with
  | nil => simp [dedupNext.keep]
  | cons b l ih =>
    obtain ⟨ha, hbl⟩ := List.pairwise_cons.mp hl
    obtain ⟨hb, hl⟩ := List.pairwise_cons.mp hbl
    rw [dedupNext.keep]
    split
    · exact ih (List.pairwise_cons.mpr ⟨fun c hc => ha c (List.mem_cons_of_mem _ hc), hl⟩)
    · next hne =>
      have hab : lt a b := hlt a b (ha b List.mem_cons_self) (by simpa using hne)
      refine List.pairwise_cons.mpr ⟨fun c hc => ?_, ih hbl⟩
      rcases List.mem_cons.mp hc with rfl | hc
      · exact hab
      · exact ht a b c hab (hb c (mem_of_mem_keep hc))

/-- A list in order without repetitions increases. -/
theorem pairwise_dedupNext {l : List α} (hl : l.Pairwise (le · ·)) :
    (dedupNext same l).Pairwise lt := by
  cases l with
  | nil => exact .nil
  | cons a l => exact pairwise_keep hlt ht hl

end Strict

/-- Lists that increase are equal when they have the same members. -/
theorem eq_of_pairwise {lt : α → α → Prop} (ha : ∀ a b, lt a b → ¬ lt b a) {l l' : List α}
    (hl : l.Pairwise lt) (hl' : l'.Pairwise lt) (h : ∀ a, a ∈ l ↔ a ∈ l') : l = l' := by
  have hnodup : ∀ {l : List α}, l.Pairwise lt → l.Nodup := by
    intro l hl
    refine hl.imp fun {a b} hab heq => ?_
    rw [heq] at hab
    exact ha b b hab hab
  have hperm : l.Perm l' := (List.perm_ext_iff_of_nodup (hnodup hl) (hnodup hl')).mpr h
  exact hperm.eq_of_pairwise (fun a b _ _ hab hba => absurd hba (ha a b hab)) hl hl'

section Firsts

variable [DecidableEq α]

/-- The loop of `firsts`, from what has been seen so far. -/
theorem mem_foldl_firsts {a : α} {seen l : List α} :
    a ∈ l.foldl (fun seen a => if a ∈ seen then seen else seen ++ [a]) seen ↔
      a ∈ seen ∨ a ∈ l := by
  induction l generalizing seen with
  | nil => simp
  | cons b l ih =>
    rw [List.foldl_cons, ih, List.mem_cons]
    split
    · constructor
      · rintro (h | h) <;> simp [h]
      · rintro (h | rfl | h) <;> simp_all
    · simp [or_assoc]

theorem nodup_foldl_firsts {seen l : List α} (hs : seen.Nodup) :
    (l.foldl (fun seen a => if a ∈ seen then seen else seen ++ [a]) seen).Nodup := by
  induction l generalizing seen with
  | nil => exact hs
  | cons b l ih =>
    rw [List.foldl_cons]
    split
    · exact ih hs
    · next hb =>
      refine ih (List.nodup_append.mpr ⟨hs, by simp, ?_⟩)
      rintro a ha c hc rfl
      exact hb (List.mem_singleton.mp hc ▸ ha)

theorem mem_firsts {a : α} {l : List α} : a ∈ firsts l ↔ a ∈ l := by
  rw [firsts, mem_foldl_firsts]
  simp

theorem nodup_firsts {l : List α} : (firsts l).Nodup := nodup_foldl_firsts List.nodup_nil

/-- The loop of `firsts` adds what has not been seen so far. -/
theorem foldl_firsts_eq {seen l : List α} :
    l.foldl (fun seen a => if a ∈ seen then seen else seen ++ [a]) seen =
      seen ++ (firsts l).filter (· ∉ seen) := by
  induction l generalizing seen with
  | nil => simp [firsts]
  | cons a l ih =>
    have hfirst : firsts (a :: l) = a :: (firsts l).filter (· ∉ [a]) := @ih [a]
    rw [List.foldl_cons, ih, hfirst, List.filter_cons, List.filter_filter]
    by_cases ha : a ∈ seen
    · -- What has been seen is not `a`, so nothing more is dropped.
      rw [if_pos ha, if_neg (by simpa using ha)]
      congr 1
      refine List.filter_congr fun b _ => ?_
      by_cases hb : b = a
      · simp [hb, ha]
      · simp [hb]
    · simp [ha]

theorem firsts_cons (a : α) (l : List α) : firsts (a :: l) = a :: (firsts l).filter (· ≠ a) := by
  refine (@foldl_firsts_eq _ _ [a] l).trans ?_
  simp

theorem firsts_concat (l : List α) (a : α) :
    firsts (l ++ [a]) = if a ∈ l then firsts l else firsts l ++ [a] := by
  simp only [← mem_firsts (l := l)]
  exact List.foldl_append

/-- What was dropped before need not be seen again. -/
theorem foldl_foldl_firsts {seen found l : List α} :
    (l.foldl (fun seen a => if a ∈ seen then seen else seen ++ [a]) found).foldl
        (fun seen a => if a ∈ seen then seen else seen ++ [a]) seen =
      (found ++ l).foldl (fun seen a => if a ∈ seen then seen else seen ++ [a]) seen := by
  induction l generalizing found with
  | nil => rw [List.foldl_nil, List.append_nil]
  | cons a l ih =>
    rw [List.foldl_cons, ih]
    split
    · next ha =>
      rw [List.foldl_append, List.foldl_append, List.foldl_cons,
        if_pos (mem_foldl_firsts.mpr (.inr ha))]
    · rw [List.append_assoc, List.singleton_append]

/-- Nothing is dropped from a list without repetitions. -/
theorem foldl_firsts_of_nodup {seen l : List α} (h : (seen ++ l).Nodup) :
    l.foldl (fun seen a => if a ∈ seen then seen else seen ++ [a]) seen = seen ++ l := by
  induction l generalizing seen with
  | nil => simp
  | cons b l ih =>
    have hb : b ∉ seen := fun hb => (List.nodup_append.mp h).2.2 b hb b List.mem_cons_self rfl
    rw [List.foldl_cons, if_neg hb, ih (by simpa using h)]
    simp

theorem firsts_of_nodup {l : List α} (h : l.Nodup) : firsts l = l := by
  simpa [firsts] using @foldl_firsts_of_nodup _ _ [] l (by simpa using h)

/-- What comes before an element without repetitions comes before its first place. -/
theorem exists_append_of_firsts {l before after : List α} {a : α}
    (h : firsts l = before ++ a :: after) :
    ∃ before' after', l = before' ++ a :: after' ∧ firsts before' = before := by
  induction l using List.reverseRecOn generalizing after with
  | nil => simp [firsts] at h
  | append_singleton l b ih =>
    rw [firsts_concat] at h
    split at h
    · obtain ⟨before', after', rfl, hb⟩ := ih h
      exact ⟨before', after' ++ [b], by simp, hb⟩
    · cases after using List.reverseRecOn with
      | nil =>
        obtain ⟨hl, hab⟩ := List.append_inj' h rfl
        cases hab
        exact ⟨l, [], rfl, hl⟩
      | append_singleton after c =>
        rw [← List.cons_append, ← List.append_assoc] at h
        obtain ⟨before', after', rfl, hb⟩ := ih (List.append_inj' h rfl).1
        exact ⟨before', after' ++ [b], by simp, hb⟩

end Firsts

/-- What a table of pairs answers stands in it. -/
theorem mem_of_lookup {α β : Type} [BEq α] [LawfulBEq α] {table : List (α × β)} {key : α} {value : β}
    (h : table.lookup key = some value) : (key, value) ∈ table := by
  obtain ⟨before, after, rfl, -⟩ := List.lookup_eq_some_iff.mp h
  simp

/-- A table with distinct keys has one entry for a key. -/
theorem flatMap_ite_key {α β γ : Type} [DecidableEq α] {table : List (α × β)}
    (hn : (table.map (·.1)).Nodup) {key : α} {value : β} (hm : (key, value) ∈ table)
    (f : α × β → List γ) :
    (table.flatMap fun entry => if entry.1 = key then f entry else []) = f (key, value) := by
  induction table with
  | nil => cases hm
  | cons entry rest ih =>
    obtain ⟨hnot, hn⟩ := List.nodup_cons.mp hn
    rw [List.flatMap_cons]
    rcases List.mem_cons.mp hm with rfl | hm
    · have hrest : (rest.flatMap fun entry => if entry.1 = key then f entry else []) = [] :=
        List.flatMap_eq_nil_iff.mpr fun other ho =>
          if_neg fun heq => hnot (List.mem_map.mpr ⟨other, ho, heq⟩)
      rw [if_pos rfl, hrest, List.append_nil]
    · have hne : entry.1 ≠ key := fun heq => hnot (List.mem_map.mpr ⟨_, hm, heq.symm⟩)
      rw [if_neg hne, ih hn hm, List.nil_append]

end RequestFlow

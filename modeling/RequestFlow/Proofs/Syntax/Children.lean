/-
Children in order of declaration. Relation types name the role of each child and
an index on the edge may number it; a child without an index stands at its place
among all children. Sorting gives the one list of a role in that order, and
children that were added in order are listed as they stand.
-/
import RequestFlow.Proofs.Order
import RequestFlow.Syntax.Children

namespace RequestFlow.Children

universe u

variable {α : Type u} {children : Children α} {role : String}

/-- `list` has the children in that role in order of declaration. Without relation types it has all
children but the first `skip`, the last of the graph first. -/
inductive Declares (children : Children α) (role : String) (skip : Nat) : List α → Prop
  | typed {sorted : List ((Nat × Nat) × Edge × α)} (ht : children.isTyped = true)
    (hp : sorted.Perm (children.numbered.filter (·.2.1.relationType == role)))
    (ho : sorted.Pairwise (inOrder · ·)) : Declares children role skip (sorted.map (·.2.2))
  | untyped (ht : children.isTyped = false) :
    Declares children role skip ((children.reverse.map (·.2)).drop skip)

theorem inOrder_iff {a b : (Nat × Nat) × Edge × α} :
    inOrder a b = true ↔ a.1.1 < b.1.1 ∨ a.1.1 = b.1.1 ∧ a.1.2 ≤ b.1.2 := by
  simp [inOrder]

theorem inOrder_total (a b : (Nat × Nat) × Edge × α) : inOrder a b = true ∨ inOrder b a = true := by
  rw [inOrder_iff, inOrder_iff]
  omega

theorem inOrder_trans (a b c : (Nat × Nat) × Edge × α) (hab : inOrder a b = true)
    (hbc : inOrder b c = true) : inOrder a c = true := by
  rw [inOrder_iff] at hab hbc ⊢
  omega

/-- No two children have the same place. -/
theorem eq_of_place {a b : (Nat × Nat) × Edge × α} (ha : a ∈ children.numbered)
    (hb : b ∈ children.numbered) (h : a.1.2 = b.1.2) : a = b := by
  simp only [numbered, List.mem_map] at ha hb
  obtain ⟨⟨⟨edge, child⟩, i⟩, hi, rfl⟩ := ha
  obtain ⟨⟨⟨edge', child'⟩, j⟩, hj, rfl⟩ := hb
  dsimp only at h
  subst h
  rw [List.mk_mem_zipIdx_iff_getElem?] at hi hj
  rw [hi] at hj
  cases hj
  rfl

/-- The order of declaration is the one that sorting gives. -/
theorem declares_iff {skip : Nat} {list : List α} :
    children.Declares role skip list ↔ list = children.many role (some skip) := by
  constructor
  · rintro (⟨ht, hp, ho⟩ | ht)
    · rw [many, if_pos ht]
      refine congrArg _ (List.Perm.eq_of_pairwise (fun a b ha hb hab hba => ?_) ho
        (pairwise_sortBy inOrder_total inOrder_trans _) (hp.trans (sortBy_perm _ _).symm))
      rw [inOrder_iff] at hab hba
      rw [mem_sortBy] at hb
      exact eq_of_place (List.mem_filter.mp (hp.mem_iff.mp ha)).1 (List.mem_filter.mp hb).1 (by omega)
    · rw [many, if_neg (by simp [ht])]
      rfl
  · rintro rfl
    cases ht : children.isTyped with
    | true =>
      rw [many, if_pos ht]
      exact .typed ht (sortBy_perm _ _) (pairwise_sortBy inOrder_total inOrder_trans _)
    | false =>
      rw [many, if_neg (by simp [ht])]
      exact .untyped ht

/-! ## Children with roles -/

/-- Every child has a relation type. -/
def HaveRoles (children : Children α) : Prop := ∀ kid ∈ children, kid.1.relationType ≠ ""

theorem isTyped_of_mem (h : children.HaveRoles) {kid : Edge × α} (hk : kid ∈ children) :
    children.isTyped = true :=
  List.any_eq_true.mpr ⟨kid, hk, by simpa using h kid hk⟩

theorem one?_eq (h : children.HaveRoles) (role : String) (position : Option Nat) :
    children.one? role position =
      (children.find? (·.1.relationType == role)).map (·.2) := by
  cases hc : children with
  | nil => cases position <;> rfl
  | cons kid rest =>
    have ht := isTyped_of_mem h (hc ▸ List.mem_cons_self)
    rw [← hc, one?, if_pos ht]

/-- Children numbered from a place on. -/
def numberedFrom (n : Nat) (children : Children α) : List ((Nat × Nat) × Edge × α) :=
  (children.zipIdx n).map fun ((edge, child), i) => ((edge.argIndex?.getD i, i), edge, child)

theorem numberedFrom_append (n : Nat) (before after : Children α) :
    numberedFrom n (before ++ after) =
      before.numberedFrom n ++ after.numberedFrom (n + before.length) := by
  rw [numberedFrom, List.zipIdx_append, List.map_append]
  rfl

theorem map_numberedFrom (n : Nat) (children : Children α) :
    (children.numberedFrom n).map (·.2) = children := by
  rw [numberedFrom, List.map_map]
  exact List.zipIdx_map_fst n children

theorem mem_of_mem_numberedFrom {n : Nat} {x : (Nat × Nat) × Edge × α}
    (h : x ∈ children.numberedFrom n) : x.2 ∈ children := by
  have hx := List.mem_map_of_mem (f := (·.2)) h
  rwa [map_numberedFrom] at hx

theorem filter_numberedFrom_other {n : Nat} (h : ∀ kid ∈ children, kid.1.relationType ≠ role) :
    (children.numberedFrom n).filter (·.2.1.relationType == role) = [] :=
  List.filter_eq_nil_iff.mpr fun x hx => by simpa using h x.2 (mem_of_mem_numberedFrom hx)

theorem filter_numberedFrom_same {n : Nat} (h : ∀ kid ∈ children, kid.1.relationType = role) :
    (children.numberedFrom n).filter (·.2.1.relationType == role) = children.numberedFrom n :=
  List.filter_eq_self.mpr fun x hx => by simpa using h x.2 (mem_of_mem_numberedFrom hx)

/-- Children whose indices do not fall are in order. -/
theorem pairwise_numberedFrom {n : Nat} {index : Nat → Option Nat}
    (hi : ∀ i kid, children[i]? = some kid → kid.1.argIndex? = index i)
    (hm : ∀ i j, i < j → (index i).getD (n + i) ≤ (index j).getD (n + j)) :
    (children.numberedFrom n).Pairwise (inOrder · ·) := by
  have hindex : ∀ k (hk : k < children.length), children[k].1.argIndex? = index k := fun k hk =>
    hi k _ (List.getElem?_eq_getElem hk)
  rw [List.pairwise_iff_getElem]
  intro i j hlti hltj hij
  have hle := hm i j hij
  simp only [numberedFrom, List.length_map, List.length_zipIdx] at hlti hltj
  simp only [inOrder_iff, numberedFrom, List.getElem_map, List.getElem_zipIdx, hindex]
  omega

/-- Children in one role that stand together, with indices in order, are listed as they stand. -/
theorem many_eq {before run after : Children α} {index : Nat → Option Nat}
    (h : HaveRoles (before ++ (run ++ after))) (hb : ∀ kid ∈ before, kid.1.relationType ≠ role)
    (hr : ∀ kid ∈ run, kid.1.relationType = role) (ha : ∀ kid ∈ after, kid.1.relationType ≠ role)
    (hi : ∀ i kid, run[i]? = some kid → kid.1.argIndex? = index i)
    (hm : ∀ i j, i < j →
      (index i).getD (before.length + i) ≤ (index j).getD (before.length + j)) (skip : Nat) :
    many (before ++ (run ++ after)) role (some skip) = run.map (·.2) := by
  have hfilter : (numbered (before ++ (run ++ after))).filter (·.2.1.relationType == role) =
      run.numberedFrom before.length := by
    change (numberedFrom 0 _).filter _ = _
    rw [numberedFrom_append, numberedFrom_append, List.filter_append, List.filter_append,
      filter_numberedFrom_other hb, filter_numberedFrom_same hr, filter_numberedFrom_other ha,
      List.nil_append, List.append_nil, Nat.zero_add]
  by_cases hempty : before ++ (run ++ after) = []
  · have hnil : run = [] := by simp_all
    rw [hempty, hnil]
    simp [many, isTyped, positional]
  · obtain ⟨kid, hk⟩ := List.exists_mem_of_ne_nil _ hempty
    have hmap := congrArg (List.map (·.2)) (map_numberedFrom before.length run)
    rw [many, if_pos (isTyped_of_mem h hk), hfilter,
      sortBy_of_pairwise (pairwise_numberedFrom hi hm), ← hmap, List.map_map]
    rfl

end RequestFlow.Children

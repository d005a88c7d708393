/-
Two computations side by side. One relation covers three needs: that a
computation never fails (`total`), that two computations have the same outcome
(`same`), and that one answers whatever the other answers (`lossy`). A fact
about all answers rides along, so each function of the analysis is gone through
once.

`Agree` is for questions, `Sim` for steps that also change a state. Both pass
through `bind` and through loops over lists.
-/
import RequestFlow.Graph.Store

namespace RequestFlow

/-- What is known of the second computation when the first fails. -/
inductive Mode where
  /-- The first does not fail. -/
  | total
  /-- The second fails in the same way. -/
  | same
  /-- Nothing is known of the second. -/
  | lossy
  deriving DecidableEq

variable {mode : Mode} {α β σ : Type}

/-- The second computation answers what the first answers, and the answer satisfies `P`. -/
inductive Agree (mode : Mode) (P : α → Prop) :
    Except GraphFault α → Except GraphFault α → Prop
  | answer {a} (h : P a) : Agree mode P (.ok a) (.ok a)
  | fault {e y} (ht : mode ≠ .total) (hs : mode = .same → y = .error e) :
    Agree mode P (.error e) y

namespace Agree

variable {P : α → Prop} {Q : β → Prop} {x y : Except GraphFault α}

/-- What comes after an answer may use which question it was given to. -/
theorem bind_ok {f g : α → Except GraphFault β} (h : Agree mode P x y)
    (k : ∀ a, P a → x = .ok a → Agree mode Q (f a) (g a)) : Agree mode Q (x >>= f) (y >>= g) := by
  cases h with
  | answer ha => exact k _ ha rfl
  | fault ht hs =>
    refine .fault ht fun hm => ?_
    rw [hs hm]; rfl

theorem bind {f g : α → Except GraphFault β} (h : Agree mode P x y)
    (k : ∀ a, P a → Agree mode Q (f a) (g a)) : Agree mode Q (x >>= f) (y >>= g) :=
  h.bind_ok fun a ha _ => k a ha

theorem imp {P' : α → Prop} (h : Agree mode P x y) (hp : ∀ a, P a → P' a) : Agree mode P' x y := by
  cases h with
  | answer ha => exact .answer (hp _ ha)
  | fault ht hs => exact .fault ht hs

theorem map {f : α → β} (h : Agree mode P x y) (hf : ∀ a, P a → Q (f a)) :
    Agree mode Q (x.map f) (y.map f) := by
  cases h with
  | answer ha => exact .answer (hf _ ha)
  | fault ht hs =>
    refine .fault ht fun hm => ?_
    rw [hs hm]; rfl

/-- Computations that are equal agree, unless they fail where none may. -/
theorem of_eq (hm : mode ≠ .total) (hp : ∀ a, x = .ok a → P a) : Agree mode P x x := by
  cases x with
  | ok a => exact .answer (hp a rfl)
  | error e => exact .fault hm fun _ => rfl

theorem eq (h : Agree .same P x y) : x = y := by
  cases h with
  | answer => rfl
  | fault _ hs => exact (hs rfl).symm

theorem of_ok {a : α} (h : Agree mode P x y) (hx : x = .ok a) : y = .ok a ∧ P a := by
  cases h with
  | answer ha => cases hx; exact ⟨rfl, ha⟩
  | fault => cases hx

/-- Where nothing fails there is an answer. -/
theorem exists_ok (h : Agree .total P x y) : ∃ a, x = .ok a ∧ P a := by
  cases h with
  | answer ha => exact ⟨_, rfl, ha⟩
  | fault ht => exact absurd rfl ht

/-- Only a question without an answer may have another outcome. -/
theorem eq_of_isOk (h : Agree mode P x y) (hx : x.isOk = true) : x = y := by
  cases h with
  | answer => rfl
  | fault => cases hx

theorem mapM {γ : Type} {P : β → Prop} {f g : γ → Except GraphFault β} {l : List γ}
    (h : ∀ a ∈ l, Agree mode P (f a) (g a)) :
    Agree mode (fun bs => ∀ b ∈ bs, P b) (l.mapM f) (l.mapM g) := by
  induction l with
  | nil => exact .answer nofun
  | cons a l ih =>
    simp only [List.mapM_cons]
    refine (h a List.mem_cons_self).bind fun b hb => ?_
    refine (ih fun c hc => h c (List.mem_cons_of_mem _ hc)).bind fun bs hbs => .answer ?_
    exact List.forall_mem_cons.mpr ⟨hb, hbs⟩

theorem foldlM {γ : Type} {f g : β → γ → Except GraphFault β} {l : List γ}
    (h : ∀ a ∈ l, ∀ b, Q b → Agree mode Q (f b a) (g b a)) {b : β} (hb : Q b) :
    Agree mode Q (l.foldlM f b) (l.foldlM g b) := by
  induction l generalizing b with
  | nil => exact .answer hb
  | cons a l ih =>
    simp only [List.foldlM_cons]
    refine (h a List.mem_cons_self b hb).bind fun b' hb' => ?_
    exact ih (fun c hc => h c (List.mem_cons_of_mem _ hc)) hb'

end Agree

/-- A computation that answers has an answer at each of its steps. -/
theorem exists_of_bind {ε : Type} {x : Except ε α} {f : α → Except ε β} {b : β}
    (h : x >>= f = .ok b) : ∃ a, x = .ok a ∧ f a = .ok b := by
  cases x with
  | error fault => cases h
  | ok a => exact ⟨a, rfl, h⟩

/-- A loop over a list answers with the answers to its entries. -/
theorem mem_mapM {ε γ : Type} {f : γ → Except ε β} {l : List γ} {bs : List β}
    (h : l.mapM f = .ok bs) {b : β} : b ∈ bs ↔ ∃ a ∈ l, f a = .ok b := by
  induction l generalizing bs with
  | nil => cases h; simp
  | cons a l ih =>
    rw [List.mapM_cons] at h
    obtain ⟨c, ha, h⟩ := exists_of_bind h
    obtain ⟨cs, hl, h⟩ := exists_of_bind h
    cases h
    simp [ih hl, ha, eq_comm]

/-- The answer to an entry stands at the place of the entry. -/
theorem getElem?_mapM {ε γ : Type} {f : γ → Except ε β} {l : List γ} {bs : List β}
    (h : l.mapM f = .ok bs) {i : Nat} {a : γ} (hi : l[i]? = some a) :
    ∃ b, bs[i]? = some b ∧ f a = .ok b := by
  induction l generalizing bs i with
  | nil => cases hi
  | cons c l ih =>
    rw [List.mapM_cons] at h
    obtain ⟨b, hc, h⟩ := exists_of_bind h
    obtain ⟨bs', hl, h⟩ := exists_of_bind h
    cases h
    cases i with
    | zero => cases hi; exact ⟨b, rfl, hc⟩
    | succ i => exact ih hl hi

theorem length_mapM {ε γ : Type} {f : γ → Except ε β} {l : List γ} {bs : List β}
    (h : l.mapM f = .ok bs) : bs.length = l.length := by
  induction l generalizing bs with
  | nil => cases h; rfl
  | cons c l ih =>
    rw [List.mapM_cons] at h
    obtain ⟨b, -, h⟩ := exists_of_bind h
    obtain ⟨bs', hl, h⟩ := exists_of_bind h
    cases h
    simp [ih hl]

/-! ## With a state -/

/-- Where two runs end: with one answer and related states, or with a fault of the first. -/
inductive Ends (mode : Mode) (R : σ → σ → Prop) (P : α → Prop) :
    Except GraphFault α × σ → Except GraphFault α × σ → Prop
  | answer {a s t} (ha : P a) (hr : R s t) : Ends mode R P (.ok a, s) (.ok a, t)
  | fault {e s y t} (ht : mode ≠ .total) (hs : mode = .same → y = .error e ∧ R s t) :
    Ends mode R P (.error e, s) (y, t)

namespace Ends

variable {R : σ → σ → Prop} {P : α → Prop} {x y : Except GraphFault α × σ}

theorem same (h : Ends .same R P x y) : x.1 = y.1 ∧ R x.2 y.2 := by
  cases h with
  | answer _ hr => exact ⟨rfl, hr⟩
  | fault _ hs => exact ⟨(hs rfl).1.symm, (hs rfl).2⟩

theorem mono {R' : σ → σ → Prop} (h : Ends mode R P x y) (hr : ∀ s t, R s t → R' s t) :
    Ends mode R' P x y := by
  cases h with
  | answer ha h => exact .answer ha (hr _ _ h)
  | fault ht hs => exact .fault ht fun hm => ⟨(hs hm).1, hr _ _ (hs hm).2⟩

/-- Where nothing fails there is an answer. -/
theorem exists_ok (h : Ends .total R P x y) : ∃ a s, x = (.ok a, s) := by
  cases h with
  | answer => exact ⟨_, _, rfl⟩
  | fault ht => exact absurd rfl ht

theorem of_isOk (h : Ends mode R P x y) (hx : x.1.isOk = true) : y.1.isOk = true ∧ R x.2 y.2 := by
  cases h with
  | answer _ hr => exact ⟨rfl, hr⟩
  | fault => cases hx

end Ends

/-- A step and what follows it, each from the state that it finds. -/
theorem run_bind {ε : Type} {m : ExceptT ε (StateM σ) α} {f : α → ExceptT ε (StateM σ) β} (s : σ) :
    (m >>= f).run.run s = match m.run.run s with
      | (.ok a, s) => (f a).run.run s
      | (.error e, s) => (.error e, s) := by
  simp only [ExceptT.run_bind, StateT.run_bind]
  rcases StateT.run m.run s with ⟨_ | _, _⟩ <;> rfl

/-- A run that answers answers at each of its steps. -/
theorem exists_of_run_bind {ε : Type} {m : ExceptT ε (StateM σ) α}
    {f : α → ExceptT ε (StateM σ) β} {s s' : σ} {b : β}
    (h : (m >>= f).run.run s = (.ok b, s')) :
    ∃ a t, m.run.run s = (.ok a, t) ∧ (f a).run.run t = (.ok b, s') := by
  rw [run_bind] at h
  split at h
  · next a t hm => exact ⟨a, t, hm, h⟩
  · cases h

/-- From related states, two steps end alike. -/
def Sim (mode : Mode) (R : σ → σ → Prop) (P : α → Prop)
    (m n : ExceptT GraphFault (StateM σ) α) : Prop :=
  ∀ s t, R s t → Ends mode R P (m.run.run s) (n.run.run t)

namespace Sim

variable {R : σ → σ → Prop} {P : α → Prop} {Q : β → Prop}
variable {m n : ExceptT GraphFault (StateM σ) α}

theorem pure {a : α} (ha : P a) : Sim mode R P (pure a) (pure a) := fun _ _ h => .answer ha h

theorem bind {f g : α → ExceptT GraphFault (StateM σ) β} (h : Sim mode R P m n)
    (k : ∀ a, P a → Sim mode R Q (f a) (g a)) : Sim mode R Q (m >>= f) (n >>= g) := by
  intro s t hr
  have hmn := h s t hr
  rw [run_bind, run_bind]
  generalize StateT.run m.run s = r₁ at hmn
  generalize StateT.run n.run t = r₂ at hmn
  cases hmn with
  | answer ha hr' => exact k _ ha _ _ hr'
  | @fault e s' y t' ht hs =>
    cases y with
    | ok b => exact .fault ht fun hm => nomatch (hs hm).1
    | error e' => exact .fault ht fun hm => ⟨by cases (hs hm).1; rfl, (hs hm).2⟩

theorem forM {γ : Type} {f g : γ → ExceptT GraphFault (StateM σ) PUnit} {l : List γ}
    (h : ∀ a ∈ l, Sim mode R (fun _ => True) (f a) (g a)) :
    Sim mode R (fun _ => True) (l.forM f) (l.forM g) := by
  induction l with
  | nil => exact pure trivial
  | cons a l ih =>
    change Sim mode R _ (f a >>= fun _ => l.forM f) (g a >>= fun _ => l.forM g)
    exact (h a List.mem_cons_self).bind fun _ _ => ih fun b hb => h b (List.mem_cons_of_mem _ hb)

/-- A change of the state that both make. -/
theorem modify {f g : σ → σ} (h : ∀ s t, R s t → R (f s) (g t)) :
    Sim mode R (fun _ => True) (modify f) (modify g) :=
  fun s t hr => .answer trivial (h s t hr)

/-- A step that reads the state first. -/
theorem get_bind {f g : σ → ExceptT GraphFault (StateM σ) α}
    (h : ∀ s t, R s t → Ends mode R P ((f s).run.run s) ((g t).run.run t)) :
    Sim mode R P (get >>= f) (get >>= g) := h

/-- A question that leaves the state as it is. -/
theorem lift {x y : Except GraphFault α} (h : Agree mode P x y) :
    Sim mode R P (liftM x : ExceptT GraphFault (StateM σ) α) (liftM y) := by
  intro s t hr
  cases h with
  | answer ha => exact .answer ha hr
  | fault ht hs => exact .fault ht fun hm => ⟨by rw [hs hm]; rfl, hr⟩

end Sim

end RequestFlow

/-
Walks through what a trace leads to. `WalksOver` says of a step of the trace that
it answers, finds nothing but what the first pair leads to, and leaves behind
what it owes. Pairs expanded on the way owe what they lead to, so a pair met
again need not be expanded again. What a producer leads to is a parameter of the
walk, so a trace with another step for call sites is gone through by the same
lemmas.

A walk that is cut short, at the depth budget or by the deadline, owes nothing.
-/
import RequestFlow.Proofs.Trace.Leads

namespace RequestFlow

/-- The pair has been expanded, the text is shown. -/
def Lead.Met (options : TraceOptions) (t : Tracer) : Lead → Prop
  | pair name context => (name, context) ∈ t.visited
  | text code location =>
    ∃ slice ∈ t.slices.slices, slice.Shows options code ∧ slice.location = location

/-- Marks and slices made so far stay, also the one that a trace was cut short. -/
structure Tracer.Grows (t t' : Tracer) : Prop where
  visited : t.visited ⊆ t'.visited
  slices : t.slices.slices ⊆ t'.slices.slices
  truncation : t'.truncation = none → t.truncation = none

namespace Tracer.Grows

variable {t t' t'' : Tracer}

theorem of_eq (hv : t'.visited = t.visited) (hs : t'.slices = t.slices)
    (ht : t'.truncation = t.truncation) : t.Grows t' where
  visited := by rw [hv]; exact fun _ h => h
  slices := by rw [hs]; exact fun _ h => h
  truncation h := ht ▸ h

theorem of_sameMarks (h : t.SameMarks t') : t.Grows t' := .of_eq h.visited h.slices h.truncation

theorem trans (h : t.Grows t') (h' : t'.Grows t'') : t.Grows t'' where
  visited _ hm := h'.visited (h.visited hm)
  slices _ hm := h'.slices (h.slices hm)
  truncation ht := h.truncation (h'.truncation ht)

theorem met (h : t.Grows t') {options : TraceOptions} {lead : Lead} (hl : lead.Met options t) :
    lead.Met options t' := by
  cases lead with
  | pair name context => exact h.visited hl
  | text code location =>
    obtain ⟨slice, hm, hs⟩ := hl
    exact ⟨slice, h.slices hm, hs⟩

end Tracer.Grows

namespace SliceSet

theorem subset_push (set : SliceSet) (slice : Slice) : set.slices ⊆ (set.push slice).slices := by
  intro other hm
  rw [push]
  split
  · exact hm
  · exact List.mem_append_left _ hm

/-- What is pushed is there afterwards, if only under its code and location. -/
theorem exists_mem_push (set : SliceSet) (slice : Slice) :
    ∃ other ∈ (set.push slice).slices, other.code = slice.code ∧ other.location = slice.location := by
  rw [push]
  split
  · next hc => simpa [contains] using hc
  · exact ⟨slice, List.mem_append_right _ (List.mem_singleton_self slice), rfl, rfl⟩

end SliceSet

namespace Trace

variable {g : Service} {setting : Setting} {own : String → Node → Lead → Prop}
  {start : String × NodeId}

/-- What a trace from `start` may show. -/
def MayShow (g : Service) (setting : Setting) (own : String → Node → Lead → Prop)
    (start : String × NodeId) (slice : Slice) : Prop :=
  ∃ pair text, g.ReachesOver own start pair ∧ g.LeadsOver own pair (.text text slice.location) ∧
    slice.Shows setting.options text

/-- From `t` to `t'`: found is only what `start` leads to, and unless the trace was cut short, the
pairs expanded on the way have all they lead to. -/
structure AdvancesOver (g : Service) (setting : Setting) (own : String → Node → Lead → Prop)
    (start : String × NodeId) (t t' : Tracer) : Prop extends t.Grows t' where
  pairs : ∀ pair ∈ t'.visited, pair ∈ t.visited ∨ g.ReachesOver own start pair
  shown : ∀ slice ∈ t'.slices.slices, slice ∈ t.slices.slices ∨ MayShow g setting own start slice
  complete : t'.truncation = none → ∀ pair ∈ t'.visited, pair ∉ t.visited →
    ∀ lead, g.LeadsOver own pair lead → lead.Met setting.options t'

abbrev Advances (g : Service) (setting : Setting) (start : String × NodeId) (t t' : Tracer) : Prop :=
  AdvancesOver g setting (g.ProducerLead setting.builtins) start t t'

namespace AdvancesOver

variable {t t' t'' : Tracer}

theorem of_eq (hv : t'.visited = t.visited) (hs : t'.slices = t.slices)
    (ht : t'.truncation = t.truncation) : AdvancesOver g setting own start t t' where
  toGrows := .of_eq hv hs ht
  pairs _ hm := .inl (hv ▸ hm)
  shown _ hm := .inl (hs ▸ hm)
  complete _ _ hm hn := absurd (hv ▸ hm) hn

theorem of_sameMarks (h : t.SameMarks t') : AdvancesOver g setting own start t t' :=
  .of_eq h.visited h.slices h.truncation

/-- Where a trace is cut short. -/
theorem of_cut (hv : t'.visited = t.visited) (hs : t'.slices = t.slices) {reason : Truncation}
    (ht : t'.truncation = some reason) : AdvancesOver g setting own start t t' where
  visited := by rw [hv]; exact fun _ h => h
  slices := by rw [hs]; exact fun _ h => h
  truncation h := nomatch ht.symm.trans h
  pairs _ hm := .inl (hv ▸ hm)
  shown _ hm := .inl (hs ▸ hm)
  complete h := nomatch ht.symm.trans h

theorem trans (h : AdvancesOver g setting own start t t')
    (h' : AdvancesOver g setting own start t' t'') : AdvancesOver g setting own start t t'' where
  toGrows := h.toGrows.trans h'.toGrows
  pairs pair hm := (h'.pairs pair hm).elim (h.pairs pair) .inr
  shown slice hm := (h'.shown slice hm).elim (h.shown slice) .inr
  complete ht pair hm hn lead hl := by
    by_cases hm' : pair ∈ t'.visited
    · exact h'.met (h.complete (h'.truncation ht) pair hm' hn lead hl)
    · exact h'.complete ht pair hm hm' lead hl

/-- A query that is not cut short expands the pairs that it leads to. -/
theorem mem_visited_of_reaches (ha : AdvancesOver g setting own start t t') (hv : t.visited = [])
    (hn : t'.truncation = none) (hs : start ∈ t'.visited) {pair : String × NodeId}
    (hr : g.ReachesOver own start pair) : pair ∈ t'.visited := by
  induction hr with
  | refl => exact hs
  | tail _ hback ih => exact ha.complete hn _ ih (by simp [hv]) _ hback

/-- A query that is not cut short has what the pairs that it leads to lead to. -/
theorem met_of_reaches (ha : AdvancesOver g setting own start t t') (hv : t.visited = [])
    (hn : t'.truncation = none) (hs : start ∈ t'.visited) {pair : String × NodeId}
    (hr : g.ReachesOver own start pair) {lead : Lead} (hl : g.LeadsOver own pair lead) :
    lead.Met setting.options t' :=
  ha.complete hn pair (ha.mem_visited_of_reaches hv hn hs hr) (by simp [hv]) lead hl

end AdvancesOver

/-- A step that answers, advances, and unless the trace is cut short meets what it owes. -/
def WalksOver (g : Service) (setting : Setting) (own : String → Node → Lead → Prop)
    (start : String × NodeId) (m : Trace Unit) (owes : Lead → Prop) : Prop :=
  ∀ t : Tracer, t.Honest g → ∃ t' : Tracer, m.run.run t = (.ok (), t') ∧ t'.Honest g ∧
    AdvancesOver g setting own start t t' ∧
      (t'.truncation = none → ∀ lead, owes lead → lead.Met setting.options t')

namespace WalksOver

variable {m : Trace Unit} {owes owes' : Lead → Prop}

theorem imp (h : WalksOver g setting own start m owes) (ho : ∀ lead, owes' lead → owes lead) :
    WalksOver g setting own start m owes' := by
  intro t ht
  obtain ⟨t', hrun, hh, ha, hmet⟩ := h t ht
  exact ⟨t', hrun, hh, ha, fun hn lead hl => hmet hn lead (ho lead hl)⟩

/-- A step that owes nothing. -/
theorem skip (ho : ∀ lead, ¬ owes lead) : WalksOver g setting own start (Pure.pure ()) owes :=
  fun t ht => ⟨t, rfl, ht, .of_sameMarks (.refl t), fun _ lead hl => absurd hl (ho lead)⟩

/-- A step after a question that has an answer. -/
theorem after {α : Type} {m : Trace α} {f : α → Trace Unit} {x : Except GraphFault α} {a : α}
    (hm : Consults g m x) (hx : x = .ok a) (hf : WalksOver g setting own start (f a) owes) :
    WalksOver g setting own start (m >>= f) owes := by
  intro t ht
  obtain ⟨t₁, h₁, ht₁, hs⟩ := hm t ht
  obtain ⟨t₂, h₂, ht₂, ha, hmet⟩ := hf t₁ ht₁
  refine ⟨t₂, ?_, ht₂, .trans (.of_sameMarks hs) ha, hmet⟩
  rw [run_bind, h₁, hx]
  exact h₂

theorem seq {f : Unit → Trace Unit} (hm : WalksOver g setting own start m owes)
    (hf : WalksOver g setting own start (f ()) owes') :
    WalksOver g setting own start (m >>= f) fun lead => owes lead ∨ owes' lead := by
  intro t ht
  obtain ⟨t₁, h₁, ht₁, ha₁, hmet₁⟩ := hm t ht
  obtain ⟨t₂, h₂, ht₂, ha₂, hmet₂⟩ := hf t₁ ht₁
  refine ⟨t₂, ?_, ht₂, ha₁.trans ha₂, fun hn lead hl => ?_⟩
  · rw [run_bind, h₁]
    exact h₂
  · exact hl.elim (fun hl => ha₂.met (hmet₁ (ha₂.truncation hn) lead hl)) (hmet₂ hn lead)

theorem forM {α : Type} {f : α → Trace Unit} {owes : α → Lead → Prop} {l : List α}
    (h : ∀ a ∈ l, WalksOver g setting own start (f a) (owes a)) :
    WalksOver g setting own start (l.forM f) fun lead => ∃ a ∈ l, owes a lead := by
  induction l with
  | nil => exact skip (by simp)
  | cons a l ih =>
    change WalksOver g setting own start (f a >>= fun _ => l.forM f) _
    refine ((h a List.mem_cons_self).seq (ih fun b hb => h b (List.mem_cons_of_mem _ hb))).imp ?_
    rintro lead ⟨b, hb, hl⟩
    rcases List.mem_cons.mp hb with rfl | hb
    · exact .inl hl
    · exact .inr ⟨b, hb, hl⟩

end WalksOver

/-- What is emitted is laid out and pushed. -/
theorem exists_run_emit {slice : Slice} {code scope : String} (hs : IsScope scope)
    (hc : slice.code = inScope scope code) (options : TraceOptions) (t : Tracer) :
    ∃ shown : Slice, shown.location = slice.location ∧ shown.Shows options code ∧
      (emit options slice).run.run t = (.ok (), { t with slices := t.slices.push shown }) := by
  unfold emit Slice.Shows TraceOptions.laidOut
  split
  · exact ⟨{ slice with code := Layout.formatSlice slice.code }, rfl, ⟨scope, hs, by rw [hc]⟩, rfl⟩
  · exact ⟨slice, rfl, ⟨scope, hs, hc⟩, rfl⟩

/-- What is pushed is met. -/
theorem met_push {shown : Slice} {options : TraceOptions} {code : String}
    (hs : shown.Shows options code) (t : Tracer) :
    (Lead.text code shown.location).Met options { t with slices := t.slices.push shown } := by
  obtain ⟨other, hm, hcode, hloc⟩ := t.slices.exists_mem_push shown
  exact ⟨other, hm, by rwa [Slice.Shows, hcode], hloc⟩

/-- What is emitted is shown, and nothing else. -/
theorem emit_walks {slice : Slice} {code location scope : String} (hs : IsScope scope)
    (hc : slice.code = inScope scope code) (hloc : slice.location = location)
    {pair : String × NodeId} (hr : g.ReachesOver own start pair)
    (hl : g.LeadsOver own pair (.text code location)) :
    WalksOver g setting own start (emit setting.options slice) (· = .text code location) := by
  intro t ht
  subst hloc
  obtain ⟨shown, hloc, hshows, hrun⟩ := exists_run_emit hs hc setting.options t
  refine ⟨_, hrun, ⟨ht.alike, ht.sites, ht.targets⟩, ?_, ?_⟩
  · exact {
      visited := fun _ h => h
      slices := t.slices.subset_push shown
      truncation := id
      pairs := fun _ => .inl
      shown := fun other hm => by
        dsimp only [SliceSet.push] at hm
        split at hm
        · exact .inl hm
        · rcases List.mem_append.mp hm with hm | hm
          · exact .inl hm
          · rw [List.mem_singleton.mp hm]
            exact .inr ⟨pair, code, hr, hloc ▸ hl, hshows⟩
      complete := fun _ _ hm hn => absurd hm hn }
  · rintro - _ rfl
    exact hloc ▸ met_push hshows t

end Trace

end RequestFlow

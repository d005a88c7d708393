/-
Settings objects inside one another. What makes an object literal settings is
read off the graph: what it is stored under, and the property that holds its
url. A scan reports the innermost of them, and none is lost: going down from
one settings object to another inside it ends at one with none inside.
-/
import RequestFlow.Proofs.Sink.Scope

namespace RequestFlow

/-- The first element of the list that satisfies `P`. -/
def IsFirst {α : Type} (P : α → Prop) (l : List α) (a : α) : Prop :=
  ∃ before after, l = before ++ a :: after ∧ P a ∧ ∀ b ∈ before, ¬ P b

theorem isFirst_cons {α : Type} {P : α → Prop} {a b : α} {l : List α} :
    IsFirst P (a :: l) b ↔ P a ∧ b = a ∨ ¬ P a ∧ IsFirst P l b := by
  constructor
  · rintro ⟨before, after, hl, hb, hbefore⟩
    cases before with
    | nil => cases hl; exact .inl ⟨hb, rfl⟩
    | cons c before =>
      cases hl
      rw [List.forall_mem_cons] at hbefore
      exact .inr ⟨hbefore.1, before, after, rfl, hb, hbefore.2⟩
  · rintro (⟨ha, rfl⟩ | ⟨ha, before, after, rfl, hb, hbefore⟩)
    · exact ⟨[], l, rfl, ha, nofun⟩
    · exact ⟨a :: before, after, rfl, hb, List.forall_mem_cons.mpr ⟨ha, hbefore⟩⟩

namespace Store

variable {store : Store} {name : String} {object : Node}

/-- The member expression picks out that name, after a dot or as a text in brackets. -/
inductive Picks (store : Store) (name : String) (member : Node) : Prop
  | dotted {property} (hm : member.type = .memberExpression)
    (hp : store.service.child? member.id "property" (some 1) = .ok (some property))
    (hi : property.type = .identifier) (hc : member.computed = false) (hn : property.code = name)
  | quoted {property} (hm : member.type = .memberExpression)
    (hp : store.service.child? member.id "property" (some 1) = .ok (some property))
    (hl : property.type = .literal) (hn : property.value = name)

/-- The object is stored under that name: as the value of a property with the name for its key, or
by an assignment to a member of the name. -/
inductive StoredUnder (store : Store) (name : String) (object : Node) : Prop
  | value {edge property key} (hp : store.service.IsParent object.id edge property)
    (ht : property.type = .property) (hr : edge.relationType = "value")
    (hk : store.service.child? property.id "key" (some 0) = .ok (some key))
    (hn : key.code = name ∨ key.value = name)
  | assigned {edge assignment left} (hp : store.service.IsParent object.id edge assignment)
    (ht : assignment.type = .assignmentExpression) (hr : edge.relationType = "right")
    (hl : store.service.child? assignment.id "left" (some 0) = .ok (some left))
    (hn : store.Picks name left)

/-- The property's key has that name. -/
def IsNamed (store : Store) (name : String) (property : Node) : Prop :=
  ∃ key, store.service.child? property.id "key" (some 0) = .ok (some key) ∧ key.keyName = name

/-- The object has a property of that name, the first so named, and the property has that value. -/
def HasProperty (store : Store) (name : String) (object value : Node) : Prop :=
  ∃ properties property,
    store.service.childrenIn object.id "properties" (some 0) = .ok properties ∧
      IsFirst (store.IsNamed name) properties property ∧
        store.service.child? property.id "value" (some 1) = .ok (some value)

/-- An object literal that holds the settings of requests to `url`. -/
structure HoldsSettings (store : Store) (object url : Node) : Prop where
  held : store.Holds object
  kind : object.type = .objectExpression
  stored : store.StoredUnder "ajaxSettings" object
  url : store.HasProperty "url" object url

/-- Settings with no others inside them. -/
structure InnermostSettings (store : Store) (object url : Node) : Prop
    extends store.HoldsSettings object url where
  innermost : ∀ inner innerUrl, store.HoldsSettings inner innerUrl →
    ¬ Relation.TransGen store.AstStep object.id inner.id

end Store

namespace Service

variable {store : Store} {name : String} {object : Node}

theorem memberProperty?_iff {member : Node} :
    store.service.memberProperty? member = .ok (some name) ↔ store.Picks name member := by
  unfold memberProperty?
  constructor
  · intro h
    split at h
    · next hm =>
      obtain ⟨property, hp, h⟩ := exists_of_bind h
      split at h
      · cases h
      · split at h
        · next hi =>
          split at h
          · cases h
          · next hc => cases h; exact .dotted hm hp hi (by simpa using hc) rfl
        · next hl => cases h; exact .quoted hm hp hl rfl
        · cases h
    · cases h
  · rintro (⟨hm, hp, hi, hdot, rfl⟩ | ⟨hm, hp, hl, rfl⟩)
    · simp [hm, hp, hi, hdot, bind, Except.bind]
    · simp [hm, hp, hl, bind, Except.bind]

theorem valueIn?_iff (hc : store.Closed) {properties : List Node} {value : Node} :
    store.service.valueIn? name properties = .ok (some value) ↔
      ∃ property, IsFirst (store.IsNamed name) properties property ∧
        store.service.child? property.id "value" (some 1) = .ok (some value) := by
  induction properties with
  | nil => simp [valueIn?, IsFirst]
  | cons property rest ih =>
    obtain ⟨key, hkey, -⟩ := (child?_agree (.of_closed hc) property.id "key" (some 0)).exists_ok
    have hnamed : store.IsNamed name property ↔ ∃ k, key = some k ∧ k.keyName = name := by
      simp [Store.IsNamed, hkey]
    by_cases hn : store.IsNamed name property
    · obtain ⟨k, rfl, hk⟩ := hnamed.mp hn
      simp [valueIn?, isFirst_cons, hkey, hn, hk, bind, Except.bind]
    · have hrest : store.service.valueIn? name (property :: rest) =
          store.service.valueIn? name rest := by
        rw [valueIn?, hkey]
        cases key with
        | none => rfl
        | some k => exact if_neg fun hk => hn (hnamed.mpr ⟨k, rfl, hk⟩)
      simpa [hrest, isFirst_cons, hn] using ih

theorem propertyValue?_iff (hc : store.Closed) {value : Node} :
    store.service.propertyValue? object name = .ok (some value) ↔
      store.HasProperty name object value := by
  constructor
  · intro h
    obtain ⟨properties, hp, h⟩ := exists_of_bind h
    obtain ⟨property, hfirst, hv⟩ := (valueIn?_iff hc).mp h
    exact ⟨properties, property, hp, hfirst, hv⟩
  · rintro ⟨properties, property, hp, hfirst, hv⟩
    rw [propertyValue?, hp]
    exact (valueIn?_iff hc).mpr ⟨property, hfirst, hv⟩

theorem isAjaxSettings_iff (hf : store.AstForest) :
    store.service.isAjaxSettings object = .ok true ↔ store.StoredUnder "ajaxSettings" object := by
  constructor
  · intro h
    obtain ⟨r, hr, h⟩ := exists_of_bind h
    split at h
    · cases h
    · next edge parent =>
      have hp := isParent_of_astParent? hr
      split at h
      · next hvalue =>
        obtain ⟨key, hkey, h⟩ := exists_of_bind h
        cases key with
        | none => cases h
        | some key => exact .value hp hvalue.1 hvalue.2 hkey (by simpa using h)
      · split at h
        · next hright =>
          obtain ⟨left, hleft, h⟩ := exists_of_bind h
          split at h
          · cases h
          · obtain ⟨picked, hpicked, h⟩ := exists_of_bind h
            obtain rfl : picked = some "ajaxSettings" := by simpa using h
            exact .assigned hp hright.1 hright.2 hleft (memberProperty?_iff.mp hpicked)
        · cases h
  · rintro (⟨hp, ht, hr, hk, hn⟩ | ⟨hp, ht, hr, hl, hn⟩)
    · simp [isAjaxSettings, hp.astParent?_eq hf, ht, hr, hk, hn, bind, Except.bind]
    · simp [isAjaxSettings, hp.astParent?_eq hf, ht, hr, hl, memberProperty?_iff.mpr hn, bind,
        Except.bind]

theorem isSettings_iff (hc : store.Closed) (hf : store.AstForest) {url : Node} :
    store.service.IsSettings object url ↔ store.HoldsSettings object url := by
  constructor
  · intro h
    exact ⟨h.held, h.kind, (isAjaxSettings_iff hf).mp h.stored, (propertyValue?_iff hc).mp h.url⟩
  · intro h
    exact ⟨h.held, h.kind, (isAjaxSettings_iff hf).mpr h.stored,
      (propertyValue?_iff hc).mpr h.url⟩

/-- A scan of the whole program reports the innermost settings. -/
theorem mem_sinks_settings (hc : store.Closed) (ha : store.AstAcyclic) (hf : store.AstForest)
    {found : List Sink} (h : store.service.sinks {} = .ok found) {sink : Sink}
    (hfamily : sink.family = .ajaxSettings) :
    sink ∈ found ↔ store.InnermostSettings sink.node sink.argument := by
  rw [(sinks_spec ha h).2]
  constructor
  · rintro ⟨-, -, hown | hinner⟩
    · exact absurd hfamily hown.family_ne
    · refine ⟨(isSettings_iff hc hf).mp hinner.settings, fun inner url hs hbelow => ?_⟩
      exact hinner.innermost inner url ((isSettings_iff hc hf).mpr hs) rfl
        ((below_iff_transGen hc hf).mpr hbelow)
  · rintro ⟨hs, hnone⟩
    refine ⟨List.not_mem_nil, rfl, .inr ⟨hfamily, (isSettings_iff hc hf).mpr hs, ?_⟩⟩
    intro inner url hinner _ hbelow
    exact hnone inner url ((isSettings_iff hc hf).mp hinner)
      ((below_iff_transGen hc hf).mp hbelow)

end Service

namespace Store

variable {store : Store} {object : Node}

/-- Going down from settings to settings inside them ends. -/
theorem HoldsSettings.exists_innermost (hc : store.Closed) (ha : store.AstAcyclic) {url : Node}
    (h : store.HoldsSettings object url) :
    ∃ inner innerUrl, store.InnermostSettings inner innerUrl ∧
      Relation.ReflTransGen store.AstStep object.id inner.id := by
  induction hid : object.id using (ha.wellFounded hc).induction generalizing object url with
  | _ id ih =>
    subst hid
    by_cases hnone : ∀ inner innerUrl, store.HoldsSettings inner innerUrl →
        ¬ Relation.TransGen store.AstStep object.id inner.id
    · exact ⟨object, url, ⟨h, hnone⟩, .refl⟩
    · push Not at hnone
      obtain ⟨next, nextUrl, hnext, hbelow⟩ := hnone
      obtain ⟨inner, innerUrl, hinner, hreach⟩ := ih next.id hbelow hnext rfl
      exact ⟨inner, innerUrl, hinner, hbelow.to_reflTransGen.trans hreach⟩

/-- **Settings objects are reported at their innermost level, and none is lost.** What a scan of the
whole program reports as settings holds settings, with its url for an argument. No settings reported
stand around others, and every settings object is one of those reported or stands around one. -/
theorem sinks_settings_innermost (store : Store) (hc : store.Closed) (ha : store.AstAcyclic)
    (hf : store.AstForest) :
    ∃ found, store.service.sinks {} = .ok found ∧
      (∀ sink ∈ found, sink.family = .ajaxSettings →
        store.HoldsSettings sink.node sink.argument) ∧
      (∀ outer ∈ found, ∀ inner ∈ found, outer.family = .ajaxSettings →
        inner.family = .ajaxSettings →
          ¬ Relation.TransGen store.AstStep outer.node.id inner.node.id) ∧
      ∀ object url, store.HoldsSettings object url →
        ∃ sink ∈ found, sink.family = .ajaxSettings ∧
          Relation.ReflTransGen store.AstStep object.id sink.node.id := by
  obtain ⟨found, hfound, -⟩ := (Service.sinks_agree (.of_closed hc) {}).exists_ok
  have hmem : ∀ {sink : Sink}, sink.family = .ajaxSettings →
      (sink ∈ found ↔ store.InnermostSettings sink.node sink.argument) :=
    Service.mem_sinks_settings hc ha hf hfound
  refine ⟨found, hfound, ?_, ?_, ?_⟩
  · intro sink hm hfamily
    exact ((hmem hfamily).mp hm).toHoldsSettings
  · intro outer houter inner hinner hfamily hfamily'
    exact ((hmem hfamily).mp houter).innermost _ _ ((hmem hfamily').mp hinner).toHoldsSettings
  · intro object url h
    obtain ⟨inner, innerUrl, hinner, hreach⟩ := h.exists_innermost hc ha
    exact ⟨⟨.ajaxSettings, inner, innerUrl⟩, (hmem rfl).mpr hinner, rfl, hreach⟩

/-- Of the two settings objects of the page the outer one is not lost: it stands around the one
reported. -/
theorem sinks_settings_nestedPage :
    nestedPage.Closed ∧ nestedPage.AstAcyclic ∧ nestedPage.AstForest ∧
    nestedPage.service.sinks {} = .ok [nestedPage.inner, nestedPage.fetch] ∧
    nestedPage.HoldsSettings nestedPage.outer.node nestedPage.outer.argument ∧
    nestedPage.HoldsSettings nestedPage.inner.node nestedPage.inner.argument ∧
    Relation.ReflTransGen nestedPage.AstStep nestedPage.outer.node.id nestedPage.inner.node.id := by
  have hc : nestedPage.Closed := by decide +kernel
  have ha : nestedPage.AstAcyclic := Store.astAcyclic_of_lt (by decide +kernel)
  have hf : nestedPage.AstForest := by decide +kernel
  have houter : nestedPage.HoldsSettings nestedPage.outer.node nestedPage.outer.argument := by
    have hasked : nestedPage.node? 7 = some nestedPage.outer.node ∧
        nestedPage.service.isAjaxSettings nestedPage.outer.node = .ok true ∧
        nestedPage.service.propertyValue? nestedPage.outer.node "url" =
          .ok (some nestedPage.outer.argument) := by decide +kernel
    exact (Service.isSettings_iff hc hf).mp ⟨hasked.1, rfl, hasked.2.1, hasked.2.2⟩
  obtain ⟨found, hfound, hholds, -, hkept⟩ := sinks_settings_innermost nestedPage hc ha hf
  rw [nestedPage.whole] at hfound
  cases hfound
  refine ⟨hc, ha, hf, nestedPage.whole, houter, hholds nestedPage.inner (by simp) rfl, ?_⟩
  obtain ⟨sink, hm, hfamily, hreach⟩ := hkept _ _ houter
  rw [List.mem_cons, List.mem_singleton] at hm
  obtain rfl | rfl := hm
  · exact hreach
  · cases hfamily

end Store

end RequestFlow

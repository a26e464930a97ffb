import PolicyVerifier.Cedar.Mapping
import PolicyVerifier.Cedar.Proofs.CanonicalProofs

/-!
# What a contribution says, and what a description holds

One spec lemma for each function of the mapping: the values and the parents a role's mapping gives,
what `absorb` leaves of them in a description, and when the two comparisons find no difference.
-/

namespace PolicyVerifier.Cedar

open Js PolicyVerifier.Core

/-! ## What a mapping gives -/

/-- The value a mapping gives an attribute name: none when it declares none, or omits it. -/
def mappedAt (config : EntityMappingConfig) (attrs : Attributes) (name : Str) : Option CedarValue :=
  (config.attributes.get? name).bind (mappedValue attrs)

/-- The ids a mapping gives a parent entity type: none when it declares none. -/
def parentsAt (config : EntityMappingConfig) (attrs : Attributes) (entityType : Str) : List Str :=
  match (config.parents.get? entityType).map (parentIds attrs) with
  | some (.ok ids) => ids
  | _ => []

/-- Writing what the entries give, each under its own name. -/
theorem get?_foldl_defineOwn {ν : Type} (f : ν → Option CedarValue) (es : List (Str × ν))
    (hes : (es.map Prod.fst).Nodup) (out : OrderedMap Str CedarValue) (name : Str) :
    (es.foldl (fun out e => defineOwn out e.1 (f e.2)) out).get? name =
      ((OrderedMap.lookup name es).bind f).or (out.get? name) := by
  induction es generalizing out with
  | nil => rfl
  | cons e es ih =>
    rw [List.map_cons, List.nodup_cons] at hes
    rw [List.foldl_cons, ih hes.2]
    by_cases hname : e.1 = name
    · have hlater : OrderedMap.lookup name es = none :=
        (OrderedMap.lookup_eq_none_iff name es).2 (hname ▸ hes.1)
      rw [hlater, OrderedMap.lookup, if_pos hname]
      cases hvalue : f e.2 with
      | none => simp [defineOwn, hvalue]
      | some value => simp [defineOwn, hvalue, hname]
    · rw [OrderedMap.lookup, if_neg hname]
      cases hvalue : f e.2 with
      | none => rfl
      | some value => simp [defineOwn, hname]

/-- `buildEntityAttrs` gives each declared name its value. -/
theorem get?_buildEntityAttrs (config : EntityMappingConfig) (attrs : Attributes) (name : Str) :
    (buildEntityAttrs config.attributes attrs).get? name = mappedAt config attrs name := by
  rw [buildEntityAttrs, get?_foldl_defineOwn (mappedValue attrs) _ config.attributes.nodup]
  exact Option.or_none

/-- A parents attribute that was read is a list of ids. -/
theorem addParentType_ok {attrs : Attributes} {e : Str × Str} {es : List (Str × Str)}
    {start parents : OrderedMap Str (List CedarEntityUid)}
    (h : (e :: es).foldlM (addParentType attrs) start = .ok parents) :
    ∃ ids, parentIds attrs e.2 = .ok ids ∧
      es.foldlM (addParentType attrs) (start.set e.1 (ids.map fun id => ⟨e.1, id⟩)) =
        .ok parents := by
  rw [List.foldlM_cons] at h
  cases hids : parentIds attrs e.2 with
  | error error => simp [addParentType, hids, bind, Except.bind] at h
  | ok ids =>
    exact ⟨ids, rfl, by simpa [addParentType, hids, bind, Except.bind, pure, Except.pure] using h⟩

theorem get?_foldlM_addParentType {attrs : Attributes} {es : List (Str × Str)}
    (hes : (es.map Prod.fst).Nodup) {start parents : OrderedMap Str (List CedarEntityUid)}
    (h : es.foldlM (addParentType attrs) start = .ok parents) (entityType : Str) :
    match OrderedMap.lookup entityType es with
    | some attrKey =>
      ∃ ids, parentIds attrs attrKey = .ok ids ∧
        parents.get? entityType = some (ids.map fun id => ⟨entityType, id⟩)
    | none => parents.get? entityType = start.get? entityType := by
  induction es generalizing start with
  | nil =>
    obtain rfl := Except.ok.inj h
    rfl
  | cons e es ih =>
    rw [List.map_cons, List.nodup_cons] at hes
    obtain ⟨ids, hids, hrest⟩ := addParentType_ok h
    have hlater := ih hes.2 hrest
    by_cases htype : e.1 = entityType
    · subst htype
      rw [(OrderedMap.lookup_eq_none_iff e.1 es).2 hes.1] at hlater
      rw [OrderedMap.lookup, if_pos rfl]
      exact ⟨ids, hids, by simpa using hlater⟩
    · rw [OrderedMap.lookup, if_neg htype]
      rw [OrderedMap.get?_set, if_neg htype] at hlater
      exact hlater

/-- `buildParents` gives each declared type its parents. -/
theorem get?_buildParents {config : EntityMappingConfig} {attrs : Attributes}
    {parents : OrderedMap Str (List CedarEntityUid)}
    (h : buildParents config.parents attrs = .ok parents) (entityType : Str) :
    parents.get? entityType =
      (config.parents.get? entityType).map fun _ =>
        (parentsAt config attrs entityType).map fun id => ⟨entityType, id⟩ := by
  have hfold := get?_foldlM_addParentType config.parents.nodup h entityType
  cases hkey : config.parents.get? entityType with
  | none =>
    rw [show OrderedMap.lookup entityType config.parents.entries = none from hkey] at hfold
    exact hfold
  | some attrKey =>
    rw [show OrderedMap.lookup entityType config.parents.entries = some attrKey from hkey] at hfold
    obtain ⟨ids, hids, hget⟩ := hfold
    simp [hget, parentsAt, hkey, hids]

/-- A contribution says what its mapping gives. -/
structure Says (c : Contribution) (config : EntityMappingConfig) (attrs : Attributes) : Prop where
  attrs_eq : c.attrs = buildEntityAttrs config.attributes attrs
  names_eq : c.names = config.attributes.keys
  parents_eq : buildParents config.parents attrs = .ok c.parents

theorem contribution_ok {role : Str} {uid : CedarEntityUid} {config : EntityMappingConfig}
    {attrs : Attributes} {c : Contribution} (h : contribution role uid config attrs = .ok c) :
    c.uid = uid ∧ c.role = role ∧ c.described = true ∧ Says c config attrs := by
  rw [contribution] at h
  cases hparents : buildParents config.parents attrs with
  | error error => simp [hparents, bind, Except.bind] at h
  | ok parents =>
    rw [hparents] at h
    obtain rfl := Except.ok.inj h
    exact ⟨rfl, rfl, rfl, rfl, rfl, hparents⟩

theorem Says.get?_attrs {c : Contribution} {config : EntityMappingConfig} {attrs : Attributes}
    (h : Says c config attrs) (name : Str) : c.attrs.get? name = mappedAt config attrs name := by
  rw [h.attrs_eq, get?_buildEntityAttrs]

/-- A mapping gives no name it does not declare. -/
theorem declared_of_mappedAt {config : EntityMappingConfig} {attrs : Attributes} {name : Str}
    {value : CedarValue} (h : mappedAt config attrs name = some value) :
    name ∈ config.attributes.keys := by
  rw [← OrderedMap.get?_isSome_iff]
  cases hkey : config.attributes.get? name with
  | none => simp [mappedAt, hkey] at h
  | some mapping => rfl

/-! ## What a description holds -/

/-- The parents a description lists are those whose keys it keeps, each under its own type. -/
structure Held.Keyed (held : Held) : Prop where
  listed : ∀ p ∈ held.entity.parents, ∃ keys, held.parents.get? p.type = some keys ∧ uidKey p ∈ keys
  kept : ∀ entityType keys, held.parents.get? entityType = some keys →
    ∀ k ∈ keys, ∃ p ∈ held.entity.parents, uidKey p = k

theorem foldl_addParent (ps : List CedarEntityUid) (seen : Finset Str × List CedarEntityUid) :
    (ps.foldl addParent seen).1 = seen.1 ∪ (ps.map uidKey).toFinset ∧
      ∀ p, p ∈ (ps.foldl addParent seen).2 ↔
        p ∈ seen.2 ∨ (p ∈ ps ∧ uidKey p ∉ seen.1) := by
  induction ps generalizing seen with
  | nil => simp
  | cons q ps ih =>
    obtain ⟨hkeys, hlist⟩ := ih (addParent seen q)
    rw [List.foldl_cons]
    by_cases hq : uidKey q ∈ seen.1
    · rw [addParent, if_pos hq] at hkeys hlist
      rw [addParent, if_pos hq]
      refine ⟨?_, fun p => ?_⟩
      · rw [hkeys]
        ext k
        simp only [List.map_cons, List.toFinset_cons, Finset.mem_union, Finset.mem_insert]
        constructor
        · tauto
        · rintro (hk | rfl | hk)
          · exact Or.inl hk
          · exact Or.inl hq
          · exact Or.inr hk
      · rw [hlist p, List.mem_cons]
        constructor
        · tauto
        · rintro (hp | ⟨rfl | hp, hk⟩)
          · exact Or.inl hp
          · exact absurd hq hk
          · exact Or.inr ⟨hp, hk⟩
    · rw [addParent, if_neg hq] at hkeys hlist
      rw [addParent, if_neg hq]
      refine ⟨?_, fun p => ?_⟩
      · rw [hkeys]
        ext k
        simp only [List.map_cons, List.toFinset_cons, Finset.mem_union, Finset.mem_insert]
        tauto
      · rw [hlist p]
        simp only [List.mem_append, Finset.mem_insert, not_or, List.mem_cons, List.not_mem_nil,
          or_false, uidKey_inj]
        constructor
        · rintro ((hp | rfl) | ⟨hp, hne, hk⟩)
          · exact Or.inl hp
          · exact Or.inr ⟨Or.inl rfl, hq⟩
          · exact Or.inr ⟨Or.inr hp, hk⟩
        · rintro (hp | ⟨rfl | hp, hk⟩)
          · exact Or.inl (Or.inl hp)
          · exact Or.inl (Or.inr rfl)
          · by_cases hpq : p = q
            · exact Or.inl (Or.inr hpq)
            · exact Or.inr ⟨hp, hpq, hk⟩

/-- The keys of a list of uids. -/
abbrev keysOf (ps : List CedarEntityUid) : Finset Str := (ps.map uidKey).toFinset

theorem mem_keysOf {p : CedarEntityUid} {ps : List CedarEntityUid} : uidKey p ∈ keysOf ps ↔ p ∈ ps := by
  simp only [keysOf, List.mem_toFinset, List.mem_map, uidKey_inj, exists_eq_right]

/-- What becomes of a description that takes in the parents of some declared types. -/
structure TookIn (held held' : Held) (es : List (Str × List CedarEntityUid)) : Prop where
  keyed : held'.Keyed
  mem_parents : ∀ p, p ∈ held'.entity.parents ↔ p ∈ held.entity.parents ∨ ∃ e ∈ es, p ∈ e.2
  get?_parents : ∀ entityType, held'.parents.get? entityType =
    match OrderedMap.lookup entityType es with
    | some ps => some ((held.parents.get? entityType).getD ∅ ∪ keysOf ps)
    | none => held.parents.get? entityType
  uid : held'.entity.uid = held.entity.uid
  attrs : held'.entity.attrs = held.entity.attrs
  names : held'.names = held.names
  described : held'.described = held.described

theorem absorbParents_takes {held : Held} (hkeyed : held.Keyed) {e : Str × List CedarEntityUid}
    (htyped : ∀ p ∈ e.2, p.type = e.1) : TookIn held (absorbParents held e) [e] := by
  obtain ⟨hkeys, hlist⟩ :=
    foldl_addParent e.2 ((held.parents.get? e.1).getD ∅, held.entity.parents)
  have hmem : ∀ p, p ∈ (absorbParents held e).entity.parents ↔ p ∈ held.entity.parents ∨ p ∈ e.2 := by
    intro p
    refine (hlist p).trans ⟨?_, ?_⟩
    · rintro (hp | ⟨hp, -⟩)
      · exact Or.inl hp
      · exact Or.inr hp
    · rintro (hp | hp)
      · exact Or.inl hp
      · by_cases hk : uidKey p ∈ (held.parents.get? e.1).getD ∅
        · -- the key was seen, so this very parent is listed
          cases hget : held.parents.get? e.1 with
          | none => simp [hget] at hk
          | some keys =>
            obtain ⟨q, hq, hqp⟩ := hkeyed.kept e.1 keys hget _ (by simpa [hget] using hk)
            exact Or.inl (uidKey_inj.1 hqp ▸ hq)
        · exact Or.inr ⟨hp, hk⟩
  have hget : ∀ entityType, (absorbParents held e).parents.get? entityType =
      if e.1 = entityType then some ((held.parents.get? e.1).getD ∅ ∪ keysOf e.2)
      else held.parents.get? entityType := by
    intro entityType
    rw [absorbParents]
    simp only [OrderedMap.get?_set]
    rw [hkeys]
  refine ⟨⟨?_, ?_⟩, ?_, ?_, rfl, rfl, rfl, rfl⟩
  · intro p hp
    rw [hget]
    rcases (hmem p).1 hp with hp | hp
    · obtain ⟨keys, hkeys, hk⟩ := hkeyed.listed p hp
      by_cases htype : e.1 = p.type
      · exact ⟨_, if_pos htype, by rw [htype, hkeys]; simp [hk]⟩
      · exact ⟨keys, by rw [if_neg htype, hkeys], hk⟩
    · exact ⟨_, if_pos (htyped p hp).symm, Finset.mem_union_right _ (mem_keysOf.2 hp)⟩
  · intro entityType keys hkeys k hk
    rw [hget] at hkeys
    by_cases htype : e.1 = entityType
    · rw [if_pos htype] at hkeys
      obtain rfl := Option.some.inj hkeys
      rcases Finset.mem_union.1 hk with hk | hk
      · cases hold : held.parents.get? e.1 with
        | none => simp [hold] at hk
        | some old =>
          obtain ⟨p, hp, hpk⟩ := hkeyed.kept e.1 old hold k (by simpa [hold] using hk)
          exact ⟨p, (hmem p).2 (Or.inl hp), hpk⟩
      · obtain ⟨p, hp, hpk⟩ := List.mem_map.1 (List.mem_toFinset.1 hk)
        exact ⟨p, (hmem p).2 (Or.inr hp), hpk⟩
    · rw [if_neg htype] at hkeys
      obtain ⟨p, hp, hpk⟩ := hkeyed.kept entityType keys hkeys k hk
      exact ⟨p, (hmem p).2 (Or.inl hp), hpk⟩
  · intro p
    rw [hmem p]
    simp
  · intro entityType
    rw [hget]
    by_cases htype : e.1 = entityType
    · subst htype
      simp [OrderedMap.lookup]
    · simp [OrderedMap.lookup, htype]

/-- Taking in the parents of every type a contribution declares. -/
theorem foldl_absorbParents_takes {es : List (Str × List CedarEntityUid)}
    (hes : (es.map Prod.fst).Nodup) (htyped : ∀ e ∈ es, ∀ p ∈ e.2, p.type = e.1) {held : Held}
    (hkeyed : held.Keyed) : TookIn held (es.foldl absorbParents held) es := by
  induction es generalizing held with
  | nil => exact ⟨hkeyed, by simp, fun _ => rfl, rfl, rfl, rfl, rfl⟩
  | cons e es ih =>
    rw [List.map_cons, List.nodup_cons] at hes
    have hfirst := absorbParents_takes hkeyed (htyped e (by simp))
    have hrest := ih hes.2 (fun e' he' => htyped e' (List.mem_cons_of_mem e he')) hfirst.keyed
    refine ⟨hrest.keyed, ?_, ?_, hrest.uid.trans hfirst.uid, hrest.attrs.trans hfirst.attrs,
      hrest.names.trans hfirst.names, hrest.described.trans hfirst.described⟩
    · intro p
      rw [List.foldl_cons, hrest.mem_parents p, hfirst.mem_parents p]
      simp only [List.mem_cons, List.not_mem_nil, or_false, exists_eq_left, exists_eq_or_imp]
      tauto
    · intro entityType
      have hold := hfirst.get?_parents entityType
      rw [List.foldl_cons, hrest.get?_parents entityType]
      by_cases htype : e.1 = entityType
      · subst htype
        rw [(OrderedMap.lookup_eq_none_iff e.1 es).2 hes.1]
        simpa [OrderedMap.lookup] using hold
      · simp only [OrderedMap.lookup, if_neg htype] at hold ⊢
        rw [hold]

/-- Attributes the entity has already are left as they are. -/
theorem foldl_absorbAttr_of_has {es : List (Str × CedarValue)} {record : OrderedMap Str CedarValue}
    (h : ∀ e ∈ es, record.has e.1 = true) : es.foldl absorbAttr record = record := by
  induction es with
  | nil => rfl
  | cons e es ih =>
    rw [List.foldl_cons, absorbAttr, if_pos (h e (by simp))]
    exact ih fun e' he' => h e' (List.mem_cons_of_mem e he')

/-- Attributes of a later role are written under the names that are free. -/
theorem get?_foldl_absorbAttr (es : List (Str × CedarValue)) (record : OrderedMap Str CedarValue)
    (name : Str) : (es.foldl absorbAttr record).get? name =
      (record.get? name).or (OrderedMap.lookup name es) := by
  induction es generalizing record with
  | nil => exact (Option.or_none).symm
  | cons e es ih =>
    rw [List.foldl_cons, ih, absorbAttr, OrderedMap.lookup]
    by_cases hname : e.1 = name
    · rw [if_pos hname]
      cases hget : record.get? name with
      | some value => simp [OrderedMap.has, hname, hget]
      | none => simp [OrderedMap.has, hname, hget]
    · rw [if_neg hname]
      split
      · rfl
      · rw [OrderedMap.get?_set, if_neg hname]

/-- Attributes the entity has none of are added behind those it has. -/
theorem entries_foldl_absorbAttr {es : List (Str × CedarValue)} (hes : (es.map Prod.fst).Nodup)
    {record : OrderedMap Str CedarValue} (h : ∀ e ∈ es, e.1 ∉ record.keys) :
    (es.foldl absorbAttr record).entries = record.entries ++ es := by
  induction es generalizing record with
  | nil => simp
  | cons e es ih =>
    rw [List.map_cons, List.nodup_cons] at hes
    have hnew : e.1 ∉ record.keys := h e (by simp)
    have hhas : ¬ record.has e.1 = true := fun hhas => hnew ((record.get?_isSome_iff e.1).1 hhas)
    rw [List.foldl_cons, absorbAttr, if_neg hhas, ih hes.2, OrderedMap.entries_set_of_not_mem _ _ _ hnew]
    · simp
    · intro e' he' hmem
      rcases (record.keys_set e.1 e.2 e'.1).1 hmem with heq | hold
      · exact hes.1 (heq ▸ List.mem_map_of_mem he')
      · exact h e' (List.mem_cons_of_mem e he') hold

/-- The uids a mapping gives a parent entity type. -/
abbrev uidsAt (config : EntityMappingConfig) (attrs : Attributes) (entityType : Str) :
    List CedarEntityUid :=
  (parentsAt config attrs entityType).map fun id => ⟨entityType, id⟩

theorem mem_uidsAt {config : EntityMappingConfig} {attrs : Attributes} {entityType : Str}
    {p : CedarEntityUid} :
    p ∈ uidsAt config attrs entityType ↔ p.type = entityType ∧ p.id ∈ parentsAt config attrs p.type := by
  rw [uidsAt, List.mem_map]
  constructor
  · rintro ⟨id, hid, rfl⟩
    exact ⟨rfl, hid⟩
  · rintro ⟨rfl, hid⟩
    exact ⟨p.id, hid, rfl⟩

theorem Says.mem_entries {c : Contribution} {config : EntityMappingConfig} {attrs : Attributes}
    (h : Says c config attrs) {e : Str × List CedarEntityUid} :
    e ∈ c.parents.entries ↔ e.1 ∈ config.parents.keys ∧ e.2 = uidsAt config attrs e.1 := by
  rw [← OrderedMap.get?_isSome_iff, show e ∈ c.parents.entries ↔ c.parents.get? e.1 = some e.2 from
    (c.parents.get?_eq_some_iff e.1 e.2).symm, get?_buildParents h.parents_eq]
  cases config.parents.get? e.1 with
  | none => simp
  | some attrKey => simp [eq_comm]

theorem Says.exists_entry {c : Contribution} {config : EntityMappingConfig} {attrs : Attributes}
    (h : Says c config attrs) {p : CedarEntityUid} :
    (∃ e ∈ c.parents.entries, p ∈ e.2) ↔ p.id ∈ parentsAt config attrs p.type := by
  constructor
  · rintro ⟨e, he, hp⟩
    rw [(h.mem_entries.1 he).2] at hp
    exact (mem_uidsAt.1 hp).2
  · intro hp
    have hdeclared : p.type ∈ config.parents.keys := by
      rw [← OrderedMap.get?_isSome_iff]
      cases hkey : config.parents.get? p.type with
      | none => simp [parentsAt, hkey] at hp
      | some attrKey => rfl
    exact ⟨(p.type, uidsAt config attrs p.type), h.mem_entries.2 ⟨hdeclared, rfl⟩,
      mem_uidsAt.2 ⟨rfl, hp⟩⟩

/-- `absorb` adds the attributes and the names, then takes in the parents of every declared type. -/
theorem absorb_takes {held : Held} (hkeyed : held.Keyed) {c : Contribution}
    {config : EntityMappingConfig} {attrs : Attributes} (h : Says c config attrs) :
    TookIn
      { held with
        entity := { held.entity with attrs := c.attrs.entries.foldl absorbAttr held.entity.attrs }
        names := held.names ∪ c.names.toFinset }
      (absorb held c) c.parents.entries := by
  refine foldl_absorbParents_takes c.parents.nodup ?_ ⟨hkeyed.listed, hkeyed.kept⟩
  intro e he p hp
  rw [(h.mem_entries.1 he).2] at hp
  exact (mem_uidsAt.1 hp).1

/-- A description holds what one mapping says of the entity, and nothing else. -/
structure Describes (held : Held) (config : EntityMappingConfig) (attrs : Attributes) : Prop where
  keyed : held.Keyed
  attrs_eq : held.entity.attrs = buildEntityAttrs config.attributes attrs
  mem_names : ∀ name, name ∈ held.names ↔ name ∈ config.attributes.keys
  get?_parents : ∀ entityType, held.parents.get? entityType =
    (config.parents.get? entityType).map fun _ => keysOf (uidsAt config attrs entityType)
  mem_parents : ∀ p, p ∈ held.entity.parents ↔ p.id ∈ parentsAt config attrs p.type

/-- The first role to name an entity describes it. -/
theorem absorb_fresh {uid : CedarEntityUid} {roles : List Str} {described : Bool} {c : Contribution}
    {config : EntityMappingConfig} {attrs : Attributes} (h : Says c config attrs) :
    Describes (absorb { entity := { uid }, roles, described } c) config attrs := by
  have hkeyed : ({ entity := { uid }, roles, described } : Held).Keyed :=
    ⟨by simp, fun entityType keys hkeys => absurd hkeys (by simp)⟩
  have htook := absorb_takes hkeyed h
  refine ⟨htook.keyed, ?_, ?_, ?_, ?_⟩
  · rw [htook.attrs, ← h.attrs_eq]
    refine OrderedMap.ext ?_
    rw [entries_foldl_absorbAttr c.attrs.nodup (by simp)]
    rfl
  · intro name
    rw [htook.names, ← h.names_eq]
    simp
  · intro entityType
    rw [htook.get?_parents, ← OrderedMap.get?, get?_buildParents h.parents_eq]
    cases config.parents.get? entityType with
    | none => rfl
    | some attrKey => simp [uidsAt]
  · intro p
    rw [htook.mem_parents, h.exists_entry]
    simp

/-! ## The two comparisons -/

/-- A later mapping adds to what an earlier one says of the same entity, or contradicts it. A name
declared and omitted is a statement: a value on one side against an omission on the other is a
contradiction. -/
inductive AddsOrContradicts (held offered : EntityMappingConfig) (attrs : Attributes) : Prop where
  | sharedAttribute (name : Str) (mine : name ∈ held.attributes.keys) (theirs : name ∈ offered.attributes.keys)
      (differ : ¬ Option.Rel CedarValue.Same (mappedAt held attrs name) (mappedAt offered attrs name))
  | ownAttribute (name : Str) (undeclared : name ∉ held.attributes.keys) (value : CedarValue)
      (gives : mappedAt offered attrs name = some value)
  | sharedParents (entityType : Str) (mine : entityType ∈ held.parents.keys)
      (theirs : entityType ∈ offered.parents.keys)
      (differ : ¬ ∀ id, id ∈ parentsAt held attrs entityType ↔ id ∈ parentsAt offered attrs entityType)
  | ownParents (entityType : Str) (undeclared : entityType ∉ held.parents.keys) (id : Str)
      (gives : id ∈ parentsAt offered attrs entityType)

/-- `sameCedarValue` is Cedar's equality, an omission equal to an omission only. -/
theorem sameCedarValue_iff (a b : Option CedarValue) :
    sameCedarValue a b = true ↔ Option.Rel CedarValue.Same a b := by
  cases a with
  | none => cases b <;> simp [sameCedarValue]
  | some a =>
    cases b with
    | none => simp [sameCedarValue]
    | some b => simp [sameCedarValue, canonical_eq_iff]

/-- `sameKeys` is equality of sets. -/
theorem sameKeys_iff (a b : Finset Str) : sameKeys a b = true ↔ a = b := by
  rw [sameKeys, Bool.and_eq_true, beq_iff_eq, decide_eq_true_eq]
  refine ⟨fun ⟨hcard, hsub⟩ => Finset.eq_of_subset_of_card_le hsub hcard.ge, ?_⟩
  rintro rfl
  exact ⟨rfl, Finset.Subset.refl a⟩

theorem keysOf_uidsAt_eq_iff {held offered : EntityMappingConfig} {attrs : Attributes}
    {entityType : Str} :
    keysOf (uidsAt held attrs entityType) = keysOf (uidsAt offered attrs entityType) ↔
      ∀ id, id ∈ parentsAt held attrs entityType ↔ id ∈ parentsAt offered attrs entityType := by
  constructor
  · intro h id
    have hmem : uidKey ⟨entityType, id⟩ ∈ keysOf (uidsAt held attrs entityType) ↔
        uidKey ⟨entityType, id⟩ ∈ keysOf (uidsAt offered attrs entityType) := by rw [h]
    simpa only [mem_keysOf, mem_uidsAt, true_and] using hmem
  · intro h
    ext k
    simp only [keysOf, uidsAt, List.mem_toFinset, List.mem_map]
    simp [h]

section Comparison

variable {held : Held} {config offered : EntityMappingConfig} {attrs : Attributes} {c : Contribution}

/-- The comparison `"merge"` makes. -/
theorem mergeConflict_eq_none_iff (hheld : Describes held config attrs) (h : Says c offered attrs) :
    mergeConflict held c = none ↔
      (∀ name, name ∈ config.attributes.keys → name ∈ offered.attributes.keys →
        Option.Rel CedarValue.Same (mappedAt config attrs name) (mappedAt offered attrs name)) ∧
      ∀ entityType, entityType ∈ config.parents.keys → entityType ∈ offered.parents.keys →
        ∀ id, id ∈ parentsAt config attrs entityType ↔ id ∈ parentsAt offered attrs entityType := by
  rw [mergeConflict]
  simp only [Option.or_eq_none_iff, Option.map_eq_none_iff, List.find?_eq_none]
  refine and_congr ?_ ?_
  · simp only [h.names_eq, hheld.mem_names, hheld.attrs_eq, h.get?_attrs, get?_buildEntityAttrs,
      Bool.and_eq_true, decide_eq_true_eq, Bool.not_eq_true', not_and, Bool.not_eq_false,
      sameCedarValue_iff]
    exact ⟨fun hall name hmine htheirs => hall name htheirs hmine,
      fun hall name htheirs hmine => hall name hmine htheirs⟩
  · constructor
    · intro hall entityType hmine htheirs
      have hsame := hall (entityType, uidsAt offered attrs entityType) (h.mem_entries.2 ⟨htheirs, rfl⟩)
      obtain ⟨attrKey, hkey⟩ := Option.isSome_iff_exists.1 ((config.parents.get?_isSome_iff _).2 hmine)
      rw [hheld.get?_parents, hkey] at hsame
      simp only [Option.map_some, Bool.not_eq_true', Bool.not_eq_false, sameKeys_iff] at hsame
      exact keysOf_uidsAt_eq_iff.1 hsame
    · intro hall e he
      obtain ⟨htheirs, heq⟩ := h.mem_entries.1 he
      rw [hheld.get?_parents]
      cases hkey : config.parents.get? e.1 with
      | none => simp
      | some attrKey =>
        have hmine : e.1 ∈ config.parents.keys := by simp [← OrderedMap.get?_isSome_iff, hkey]
        have hsame := keysOf_uidsAt_eq_iff.2 (hall e.1 hmine htheirs)
        simpa only [Option.map_some, Bool.not_eq_true', Bool.not_eq_false, sameKeys_iff, heq] using hsame

/-- The comparison `"strict"` makes: nothing is added, nothing contradicted. -/
theorem strictDifference_eq_none_iff (hheld : Describes held config attrs) (h : Says c offered attrs) :
    strictDifference held c = none ↔ ¬ AddsOrContradicts config offered attrs := by
  rw [strictDifference]
  simp only [Option.or_eq_none_iff, Option.map_eq_none_iff, List.find?_eq_none,
    mergeConflict_eq_none_iff hheld h]
  constructor
  · rintro ⟨⟨hattrs, hparents⟩, hnewAttrs, hnewParents⟩ hadds
    cases hadds with
    | sharedAttribute name mine theirs differ => exact differ (hattrs name mine theirs)
    | ownAttribute name undeclared value gives =>
      refine hnewAttrs name (h.names_eq ▸ declared_of_mappedAt gives) ?_
      simp [hheld.mem_names, undeclared, OrderedMap.has, h.get?_attrs, gives]
    | sharedParents entityType mine theirs differ => exact differ (hparents entityType mine theirs)
    | ownParents entityType undeclared id gives =>
      obtain ⟨e, he, hpe⟩ := (h.exists_entry (p := ⟨entityType, id⟩)).2 gives
      have htype : e.1 = entityType := by
        rw [(h.mem_entries.1 he).2] at hpe
        exact (mem_uidsAt.1 hpe).1.symm
      refine hnewParents e he ?_
      simp [OrderedMap.has, hheld.get?_parents, htype,
        (config.parents.get?_eq_none_iff entityType).2 undeclared, List.length_pos_of_mem hpe]
  · intro hnot
    refine ⟨⟨?_, ?_⟩, ?_, ?_⟩
    · intro name hmine htheirs
      by_contra hdiffer
      exact hnot (.sharedAttribute name hmine htheirs hdiffer)
    · intro entityType hmine htheirs
      by_contra hdiffer
      exact hnot (.sharedParents entityType hmine htheirs hdiffer)
    · intro name hname hadds
      simp only [hheld.mem_names, OrderedMap.has, h.get?_attrs, Bool.and_eq_true,
        decide_eq_true_eq] at hadds
      obtain ⟨value, hvalue⟩ := Option.isSome_iff_exists.1 hadds.2
      exact hnot (.ownAttribute name hadds.1 value hvalue)
    · intro e he hadds
      rw [Bool.and_eq_true, decide_eq_true_eq] at hadds
      obtain ⟨p, hp⟩ := List.exists_mem_of_length_pos hadds.2
      rw [(h.mem_entries.1 he).2] at hp
      obtain ⟨htype, hid⟩ := mem_uidsAt.1 hp
      refine hnot (.ownParents e.1 ?_ p.id (htype ▸ hid))
      rw [← OrderedMap.get?_eq_none_iff]
      simpa [OrderedMap.has, hheld.get?_parents] using hadds.1

/-- A mapping that adds nothing and contradicts nothing is no conflict under `"merge"` either. -/
theorem mergeConflict_of_repeats (hheld : Describes held config attrs) (h : Says c offered attrs)
    (hnot : ¬ AddsOrContradicts config offered attrs) : mergeConflict held c = none := by
  have hstrict := (strictDifference_eq_none_iff hheld h).2 hnot
  rw [strictDifference, Option.or_eq_none_iff] at hstrict
  exact hstrict.1

end Comparison

end PolicyVerifier.Cedar

import PolicyVerifier.Cedar.Proofs.CycleProofs

/-!
# Two descriptions of one entity

Under `"merge"` two roles that name one entity both describe it, where they agree on all that both declare.
The first to write stays, but as it agrees with the other, neither role has to come first.
-/

namespace PolicyVerifier.Cedar

open Js PolicyVerifier.Core Relation

/-- A contribution lists a parent. -/
def Lists (c : Contribution) (parent : CedarEntityUid) : Prop := ∃ e ∈ c.parents.entries, parent ∈ e.2

/-- What both contributions declare is the same to Cedar: a value or an omission, and a set of parents. -/
structure Agrees (c c' : Contribution) : Prop where
  attributes : ∀ name ∈ c.names, name ∈ c'.names →
    Option.Rel CedarValue.Same (c.attrs.get? name) (c'.attrs.get? name)
  parents : ∀ entityType ps ps', c.parents.get? entityType = some ps →
    c'.parents.get? entityType = some ps' → ∀ p, p ∈ ps ↔ p ∈ ps'

theorem optionRel_symm {a b : Option CedarValue} (h : Option.Rel CedarValue.Same a b) :
    Option.Rel CedarValue.Same b a := by
  cases h with
  | none => exact .none
  | some h => exact .some ((canonical_eq_iff _ _).1 ((canonical_eq_iff _ _).2 h).symm)

theorem optionRel_refl (a : Option CedarValue) : Option.Rel CedarValue.Same a a := by
  cases a with
  | none => exact .none
  | some v => exact .some ((canonical_eq_iff v v).1 rfl)

theorem Agrees.symm {c c' : Contribution} (h : Agrees c c') : Agrees c' c :=
  ⟨fun name hmine htheirs => optionRel_symm (h.attributes name htheirs hmine),
    fun entityType ps ps' hps hps' p => (h.parents entityType ps' ps hps' hps p).symm⟩

/-- A list of one entity has a cycle when the entity is its own parent. -/
theorem hasCycle_singleton {entity : CedarEntity} :
    HasCycle [entity] ↔ entity.uid ∈ entity.parents := by
  have hparent : ∀ {uid parent}, Parent [entity] uid parent → entity.uid = uid ∧ parent ∈ entity.parents := by
    rintro uid parent ⟨e, he, huid, hmem⟩
    obtain rfl := List.mem_singleton.1 he
    exact ⟨huid, hmem⟩
  constructor
  · rintro ⟨uid, hcycle⟩
    obtain ⟨middle, hfirst, hrest⟩ := TransGen.head'_iff.1 hcycle
    obtain ⟨rfl, hmem⟩ := hparent hfirst
    -- the way back starts at the parent, so the parent is the entity
    rcases reflTransGen_iff_eq_or_transGen.1 hrest with heq | hrest
    · exact heq.symm ▸ hmem
    · obtain ⟨next, hnext, -⟩ := TransGen.head'_iff.1 hrest
      rw [(hparent hnext).1]
      exact hmem
  · exact fun h => ⟨entity.uid, .single ⟨entity, List.mem_singleton_self entity, rfl, h⟩⟩

section TwoRoles

variable {role role' : Str} {uid : CedarEntityUid} {config config' : EntityMappingConfig}
  {attrs : Attributes} {c c' : Contribution}

theorem agrees_iff (h : Says c config attrs) (h' : Says c' config' attrs) :
    Agrees c c' ↔ mergeConflict (firstHeld c) c' = none := by
  rw [mergeConflict_eq_none_iff (firstHeld_describes h).1 h']
  have hparents : ∀ {c : Contribution} {config : EntityMappingConfig}, Says c config attrs →
      ∀ entityType ps, c.parents.get? entityType = some ps ↔
        entityType ∈ config.parents.keys ∧ ps = uidsAt config attrs entityType := by
    intro c config h entityType ps
    rw [OrderedMap.get?_eq_some_iff]
    exact h.mem_entries
  constructor
  · intro hagrees
    refine ⟨fun name hmine htheirs => ?_, fun entityType hmine htheirs id => ?_⟩
    · rw [← h.get?_attrs, ← h'.get?_attrs]
      exact hagrees.attributes name (h.names_eq ▸ hmine) (h'.names_eq ▸ htheirs)
    · have hsame := hagrees.parents entityType _ _ ((hparents h _ _).2 ⟨hmine, rfl⟩)
        ((hparents h' _ _).2 ⟨htheirs, rfl⟩) ⟨entityType, id⟩
      simpa only [mem_uidsAt, true_and] using hsame
  · rintro ⟨hattrs, hids⟩
    refine ⟨fun name hmine htheirs => ?_, fun entityType ps ps' hps hps' p => ?_⟩
    · rw [h.get?_attrs, h'.get?_attrs]
      exact hattrs name (h.names_eq ▸ hmine) (h'.names_eq ▸ htheirs)
    · obtain ⟨hmine, rfl⟩ := (hparents h _ _).1 hps
      obtain ⟨htheirs, rfl⟩ := (hparents h' _ _).1 hps'
      rw [mem_uidsAt, mem_uidsAt]
      refine and_congr_right fun htype => ?_
      rw [htype]
      exact hids entityType hmine htheirs p.id

/-- What two described roles of one entity come to. -/
theorem requestEntities_two (hc : contribution role uid config attrs = .ok c)
    (hc' : contribution role' uid config' attrs = .ok c') :
    (¬ Agrees c c' → ∃ e, requestEntities .merge [c, c'] = .error e) ∧
    (Agrees c c' → ∃ entity : CedarEntity, entity.uid = uid ∧
      (∀ name, entity.attrs.get? name = (c.attrs.get? name).or (c'.attrs.get? name)) ∧
      (∀ p, p ∈ entity.parents ↔ Lists c p ∨ Lists c' p) ∧
      requestEntities .merge [c, c'] = refuseCycles [entity] >>= fun _ => .ok [entity]) := by
  obtain ⟨huid, -, hdescribed, hsaid⟩ := contribution_ok hc
  obtain ⟨huid', -, hdescribed', hsaid'⟩ := contribution_ok hc'
  obtain ⟨hdescribes, hheld, hflag⟩ := firstHeld_describes hsaid
  have hfirst : reconcile .merge ∅ c = .ok ((∅ : OrderedMap Str Held).set (uidKey c.uid) (firstHeld c)) :=
    reconcile_new (by simp)
  have hget : ((∅ : OrderedMap Str Held).set (uidKey c.uid) (firstHeld c)).get? (uidKey c'.uid) =
      some (firstHeld c) := by
    rw [OrderedMap.get?_set, if_pos (by rw [huid, huid'])]
  have hentities : requestEntities .merge [c, c'] =
      reconcile .merge ((∅ : OrderedMap Str Held).set (uidKey c.uid) (firstHeld c)) c' >>= fun held =>
        refuseCycles (entitiesOf held) >>= fun _ => .ok (entitiesOf held) := by
    rw [requestEntities, ExceptFold.foldlM_cons_ok hfirst, ExceptFold.foldlM_singleton]
    rfl
  have hdesc : (firstHeld c).described = true := hflag.trans hdescribed
  refine ⟨fun hdisagree => ?_, fun hagrees => ?_⟩
  · rw [agrees_iff hsaid hsaid'] at hdisagree
    obtain ⟨difference, hdifference⟩ := Option.ne_none_iff_exists'.1 hdisagree
    rw [hentities]
    refine ⟨.shared (firstHeld c).roles (firstHeld c).described c'.role c'.uid.type difference, ?_⟩
    simp [reconcile, hget, hdesc, hdifference, bind, Except.bind]
  · have hnone := (agrees_iff hsaid hsaid').1 hagrees
    set joined : Held :=
      { firstHeld c with
        roles := (firstHeld c).roles ++ [c'.role]
        described := (firstHeld c).described || c'.described }
    have hkeyed : joined.Keyed := ⟨hdescribes.keyed.listed, hdescribes.keyed.kept⟩
    have htook := absorb_takes hkeyed hsaid'
    have hheld' : reconcile .merge ((∅ : OrderedMap Str Held).set (uidKey c.uid) (firstHeld c)) c' =
        .ok (((∅ : OrderedMap Str Held).set (uidKey c.uid) (firstHeld c)).set (uidKey c'.uid)
          (absorb joined c')) := by
      simp [reconcile, hget, hdesc, hnone, joined]
    have hone : entitiesOf (((∅ : OrderedMap Str Held).set (uidKey c.uid) (firstHeld c)).set (uidKey c'.uid)
        (absorb joined c')) = [(absorb joined c').entity] := by
      have hflag' : (absorb joined c').described = true := by
        rw [htook.described]
        simp [joined, hdesc]
      rw [entitiesOf, huid, huid']
      simp [OrderedMap.set, OrderedMap.setEntry, hflag']
    refine ⟨(absorb joined c').entity, ?_, fun name => ?_, fun p => ?_, ?_⟩
    · rw [htook.uid]
      exact hheld.trans huid
    · rw [htook.attrs]
      show (c'.attrs.entries.foldl absorbAttr (firstHeld c).entity.attrs).get? name = _
      rw [get?_foldl_absorbAttr, hdescribes.attrs_eq, ← hsaid.attrs_eq]
      rfl
    · rw [htook.mem_parents]
      refine or_congr ?_ Iff.rfl
      exact (hdescribes.mem_parents p).trans hsaid.exists_entry.symm
    · rw [hentities, hheld']
      show refuseCycles (entitiesOf _) >>= _ = _
      rw [hone]

/-- A cycle of one entity: a mapping lists it among its own parents. -/
def ListsItself (c c' : Contribution) : Prop := Lists c c.uid ∨ Lists c' c.uid

theorem requestEntities_ok (hc : contribution role uid config attrs = .ok c)
    (hc' : contribution role' uid config' attrs = .ok c') {entities : List CedarEntity}
    (h : requestEntities .merge [c, c'] = .ok entities) :
    Agrees c c' ∧ ∃ entity : CedarEntity, entities = [entity] ∧ entity.uid = uid ∧
      (∀ name, entity.attrs.get? name = (c.attrs.get? name).or (c'.attrs.get? name)) ∧
      ∀ p, p ∈ entity.parents ↔ Lists c p ∨ Lists c' p := by
  obtain ⟨hrefused, hmerged⟩ := requestEntities_two hc hc'
  have hagrees : Agrees c c' := by
    by_contra hdisagree
    obtain ⟨e, he⟩ := hrefused hdisagree
    exact absurd (h.symm.trans he) (by simp)
  obtain ⟨entity, huid, hattrs, hparents, heq⟩ := hmerged hagrees
  rw [heq] at h
  obtain ⟨-, -, h⟩ := ExceptFold.bind_eq_ok h
  exact ⟨hagrees, entity, (Except.ok.inj h).symm, huid, hattrs, hparents⟩

theorem requestEntities_accepts_iff (hc : contribution role uid config attrs = .ok c)
    (hc' : contribution role' uid config' attrs = .ok c') :
    (∃ entities, requestEntities .merge [c, c'] = .ok entities) ↔ Agrees c c' ∧ ¬ ListsItself c c' := by
  obtain ⟨hrefused, hmerged⟩ := requestEntities_two hc hc'
  have huid := (contribution_ok hc).1
  by_cases hagrees : Agrees c c'
  · obtain ⟨entity, huid', -, hparents, heq⟩ := hmerged hagrees
    have hcycle : (∃ e, refuseCycles [entity] = .error e) ↔ HasCycle [entity] :=
      refuseCycles_error_iff (List.nodup_singleton _)
    rw [hasCycle_singleton, hparents, huid', ← huid] at hcycle
    rw [and_iff_right hagrees, ListsItself, ← hcycle, heq]
    cases refuseCycles [entity] with
    | error e => exact iff_of_false (by simp [bind, Except.bind]) (by simp)
    | ok u => exact iff_of_true ⟨[entity], rfl⟩ (by simp)
  · obtain ⟨e, he⟩ := hrefused hagrees
    exact iff_of_false (by simp [he]) fun h => hagrees h.1

end TwoRoles

/-- What `"merge"` makes of two described roles that name one entity. -/
structure MergesRoles (c c' : Contribution) : Prop where
  /-- They are accepted when they agree on all that both declare, and neither makes the entity its own
  parent. -/
  accepted : (∃ entities, requestEntities .merge [c, c'] = .ok entities) ↔ Agrees c c' ∧ ¬ ListsItself c c'
  /-- The one entity holds what either says of it. -/
  union : ∀ entities, requestEntities .merge [c, c'] = .ok entities → ∃ entity : CedarEntity,
    entities = [entity] ∧ entity.uid = c.uid ∧
      (∀ name, entity.attrs.get? name = (c.attrs.get? name).or (c'.attrs.get? name)) ∧
      ∀ p, p ∈ entity.parents ↔ Lists c p ∨ Lists c' p
  /-- Neither role has to come first. -/
  swapped : (∃ entities, requestEntities .merge [c', c] = .ok entities) ↔
    ∃ entities, requestEntities .merge [c, c'] = .ok entities
  same : ∀ entities entities', requestEntities .merge [c, c'] = .ok entities →
    requestEntities .merge [c', c] = .ok entities' → ∃ entity entity' : CedarEntity,
      entities = [entity] ∧ entities' = [entity'] ∧
      (∀ name, Option.Rel CedarValue.Same (entity.attrs.get? name) (entity'.attrs.get? name)) ∧
      ∀ p, p ∈ entity.parents ↔ p ∈ entity'.parents

/-- Merging two descriptions of one entity is the same in either order. -/
theorem merge_roles (role role' : Str) (uid : CedarEntityUid) (config config' : EntityMappingConfig)
    (attrs : Attributes) (c c' : Contribution) (hc : contribution role uid config attrs = .ok c)
    (hc' : contribution role' uid config' attrs = .ok c') : MergesRoles c c' := by
  obtain ⟨huid, -, -, hsaid⟩ := contribution_ok hc
  obtain ⟨huid', -, -, hsaid'⟩ := contribution_ok hc'
  have hdeclared : ∀ {c : Contribution} {config : EntityMappingConfig}, Says c config attrs →
      ∀ name value, c.attrs.get? name = some value → name ∈ c.names := by
    intro c config h name value hvalue
    rw [h.get?_attrs] at hvalue
    exact h.names_eq ▸ declared_of_mappedAt hvalue
  refine ⟨requestEntities_accepts_iff hc hc', fun entities h => ?_, ?_, fun entities entities' h h' => ?_⟩
  · obtain ⟨-, entity, hone, heq, hattrs, hparents⟩ := requestEntities_ok hc hc' h
    exact ⟨entity, hone, heq.trans huid.symm, hattrs, hparents⟩
  · rw [requestEntities_accepts_iff hc hc', requestEntities_accepts_iff hc' hc, ListsItself, ListsItself,
      huid, huid', or_comm]
    exact and_congr_left fun _ => ⟨Agrees.symm, Agrees.symm⟩
  · obtain ⟨hagrees, entity, hone, -, hattrs, hparents⟩ := requestEntities_ok hc hc' h
    obtain ⟨-, entity', hone', -, hattrs', hparents'⟩ := requestEntities_ok hc' hc h'
    refine ⟨entity, entity', hone, hone', fun name => ?_, fun p => ?_⟩
    · rw [hattrs, hattrs']
      cases hmine : c.attrs.get? name with
      | none =>
        rw [Option.none_or, Option.or_none]
        exact optionRel_refl _
      | some value =>
        cases htheirs : c'.attrs.get? name with
        | none =>
          rw [Option.none_or, Option.or_none]
          exact optionRel_refl _
        | some value' =>
          have hboth := hagrees.attributes name (hdeclared hsaid name value hmine)
            (hdeclared hsaid' name value' htheirs)
          rw [hmine, htheirs] at hboth
          exact hboth
    · rw [hparents, hparents', or_comm]

/-- A user with a department and two teams, who reads her own profile. -/
def aliceAttrs : Attributes :=
  OrderedMap.ofList [(js "dept", .str (js "ops")), (js "teams", .list [.str (js "b"), .str (js "c")])]

def callerMapping : EntityMappingConfig := { attributes := OrderedMap.ofList [(js "dept", .copy (js "dept"))] }

def profileMapping : EntityMappingConfig :=
  { attributes := OrderedMap.ofList [(js "dept", .copy (js "dept"))]
    parents := OrderedMap.ofList [(js "Team", js "teams")] }

theorem merge_roles_alice :
    ∃ caller profile, contribution (js "principal") ⟨js "User", js "a"⟩ callerMapping aliceAttrs = .ok caller ∧
      contribution (js "resource") ⟨js "User", js "a"⟩ profileMapping aliceAttrs = .ok profile ∧
        MergesRoles caller profile := by
  obtain ⟨caller, hcaller⟩ : ∃ caller, contribution (js "principal") ⟨js "User", js "a"⟩ callerMapping
      aliceAttrs = .ok caller := ⟨_, rfl⟩
  obtain ⟨profile, hprofile⟩ : ∃ profile, contribution (js "resource") ⟨js "User", js "a"⟩ profileMapping
      aliceAttrs = .ok profile := ⟨_, rfl⟩
  exact ⟨caller, profile, hcaller, hprofile,
    merge_roles (js "principal") (js "resource") ⟨js "User", js "a"⟩ callerMapping profileMapping aliceAttrs
      caller profile hcaller hprofile⟩

/-- A mapping that finds a user's managers under the attribute that holds the user's own name. -/
def managedMapping : EntityMappingConfig := { parents := OrderedMap.ofList [(js "User", js "manager")] }

/-- Two roles that agree on everything are still refused where both make the entity its own parent. -/
theorem merge_refuses_own_parent :
    ∃ c c', contribution (js "principal") ⟨js "User", js "a"⟩ managedMapping
        (OrderedMap.ofList [(js "manager", .str (js "a"))]) = .ok c ∧
      contribution (js "resource") ⟨js "User", js "a"⟩ managedMapping
        (OrderedMap.ofList [(js "manager", .str (js "a"))]) = .ok c' ∧
      ¬ ((∃ entities, requestEntities .merge [c, c'] = .ok entities) ↔ Agrees c c') := by
  obtain ⟨c, hc, hlists⟩ : ∃ c, contribution (js "principal") ⟨js "User", js "a"⟩ managedMapping
      (OrderedMap.ofList [(js "manager", .str (js "a"))]) = .ok c ∧
        Lists c ⟨js "User", js "a"⟩ := ⟨_, rfl, ⟨_, List.mem_singleton_self _, List.mem_singleton_self _⟩⟩
  obtain ⟨c', hc', hattrs, hparents⟩ : ∃ c', contribution (js "resource") ⟨js "User", js "a"⟩ managedMapping
      (OrderedMap.ofList [(js "manager", .str (js "a"))]) = .ok c' ∧ c'.attrs = c.attrs ∧
        c'.parents = c.parents := by
    obtain ⟨rfl⟩ := Except.ok.inj hc
    exact ⟨_, rfl, rfl, rfl⟩
  have hagrees : Agrees c c' := by
    refine ⟨fun name _ _ => ?_, fun entityType ps ps' hps hps' p => ?_⟩
    · rw [hattrs]
      exact optionRel_refl _
    · rw [hparents, hps] at hps'
      rw [Option.some.inj hps']
  refine ⟨c, c', hc, hc', fun h => ?_⟩
  have haccepts := (requestEntities_accepts_iff hc hc').1 (h.2 hagrees)
  exact haccepts.2 (Or.inl ((contribution_ok hc).1 ▸ hlists))

end PolicyVerifier.Cedar

import PolicyVerifier.Lib.ExceptFold
import PolicyVerifier.Cedar.Proofs.MappingProofs

/-!
# Two roles that name one entity

Under `"strict"` a request on which the principal and the resource are one entity holds what the
principal's mapping says of it, and nothing of the resource's; the request's own action takes no
description from anyone under either setting.
-/

namespace PolicyVerifier.Cedar

open Js PolicyVerifier.Core ExceptFold

/-! ## Which errors refuse a request for sharing -/

theorem requestUids_not_shared {m : ResolvedMapping} {attrs : Attributes} {e : CedarInputError}
    (h : requestUids m attrs = .error e) : e.isShared = false := by
  have hrequired : ∀ key role e, requiredString attrs key role = .error e → e.isShared = false := by
    intro key role e h
    unfold requiredString at h
    split at h
    · split at h
      · obtain rfl := Except.error.inj h
        rfl
      · exact absurd h (by simp)
    · obtain rfl := Except.error.inj h
      rfl
  have hoptional : ∀ key role e, optionalAttrString attrs key role = .error e → e.isShared = false := by
    intro key role e h
    unfold optionalAttrString at h
    split at h
    · exact absurd h (by simp)
    · exact absurd h (by simp)
    · obtain rfl := Except.error.inj h
      rfl
  rw [requestUids] at h
  rcases bind_eq_error h with h | ⟨_, -, h⟩
  · exact hrequired _ _ _ h
  rcases bind_eq_error h with h | ⟨_, -, h⟩
  · exact hrequired _ _ _ h
  rcases bind_eq_error h with h | ⟨_, -, h⟩
  · exact hrequired _ _ _ h
  rcases bind_eq_error h with h | ⟨_, -, h⟩
  · exact hoptional _ _ _ h
  · exact absurd h (by simp [pure, Except.pure])

theorem contribution_not_shared {role : Str} {uid : CedarEntityUid} {config : EntityMappingConfig}
    {attrs : Attributes} {e : CedarInputError} (h : contribution role uid config attrs = .error e) :
    e.isShared = false := by
  rw [contribution] at h
  rcases bind_eq_error h with h | ⟨_, -, h⟩
  · refine foldlM_error (Q := fun e => e.isShared = false) ?_ h
    intro byType entry e h
    rcases bind_eq_error h with h | ⟨_, -, h⟩
    · unfold parentIds at h
      split at h
      · exact absurd h (by simp)
      · exact absurd h (by simp)
      · split at h
        · exact absurd h (by simp)
        · obtain rfl := Except.error.inj h
          rfl
      · obtain rfl := Except.error.inj h
        rfl
    · exact absurd h (by simp [pure, Except.pure])
  · exact absurd h (by simp [pure, Except.pure])

theorem visit_error {byKey : OrderedMap Str CedarEntity} {fuel : Nat} {state : OrderedMap Str Visit}
    {key : Str} {entity : CedarEntity} {e : CedarInputError}
    (h : visit byKey fuel state key entity = .error e) : e = .cycle := by
  induction fuel generalizing state key entity e with
  | zero => exact (Except.error.inj h).symm
  | succ fuel ih =>
    rw [visit] at h
    split at h
    · exact absurd h (by simp)
    · exact (Except.error.inj h).symm
    · rcases bind_eq_error h with h | ⟨_, -, h⟩
      · refine foldlM_error (Q := fun e => e = .cycle) ?_ h
        intro state parent e h
        split at h
        · exact ih h
        · exact absurd h (by simp)
      · exact absurd h (by simp [pure, Except.pure])

theorem refuseCycles_error {entities : List CedarEntity} {e : CedarInputError}
    (h : refuseCycles entities = .error e) : e = .cycle := by
  rw [refuseCycles] at h
  rcases bind_eq_error h with h | ⟨_, -, h⟩
  · exact foldlM_error (Q := fun e => e = .cycle) (fun _ _ _ h => visit_error h) h
  · exact absurd h (by simp [pure, Except.pure])

/-! ## The three roles of a request -/

/-- The description a role begins that is the first to name its entity. -/
def firstHeld (c : Contribution) : Held :=
  absorb { entity := { uid := c.uid }, roles := [c.role], described := c.described } c

theorem firstHeld_describes {c : Contribution} {config : EntityMappingConfig} {attrs : Attributes}
    (h : Says c config attrs) :
    Describes (firstHeld c) config attrs ∧ (firstHeld c).entity.uid = c.uid ∧
      (firstHeld c).described = c.described := by
  have hkeyed : ({ entity := { uid := c.uid }, roles := [c.role], described := c.described } : Held).Keyed :=
    ⟨by simp, fun entityType keys hkeys => absurd hkeys (by simp)⟩
  have htook := absorb_takes hkeyed h
  exact ⟨absorb_fresh h, htook.uid, htook.described⟩

/-- What is held once the principal and the action have been taken in. -/
def heldBefore (principal action : Contribution) : OrderedMap Str Held :=
  ((∅ : OrderedMap Str Held).set (uidKey principal.uid) (firstHeld principal)).set
    (uidKey action.uid) (firstHeld action)

theorem reconcile_new {sharing : SharedEntity} {held : OrderedMap Str Held} {c : Contribution}
    (h : held.get? (uidKey c.uid) = none) :
    reconcile sharing held c = .ok (held.set (uidKey c.uid) (firstHeld c)) := by
  simp [reconcile, h, firstHeld]

theorem foldlM_reconcile {sharing : SharedEntity} {principal action resource : Contribution}
    (hne : principal.uid ≠ action.uid) :
    [principal, action, resource].foldlM (reconcile sharing) ∅ =
      reconcile sharing (heldBefore principal action) resource := by
  have hkey : uidKey principal.uid ≠ uidKey action.uid := fun h => hne (uidKey_inj.1 h)
  rw [foldlM_cons_ok (reconcile_new (by simp)), foldlM_cons_ok (reconcile_new (by simp [hkey])),
    foldlM_singleton]
  rfl

/-- A request that was built: the ids, the three contributions, and the entities they make. -/
structure Built (m : ResolvedMapping) (attrs : Attributes) (uids : RequestUids)
    (principal action resource : Contribution) : Prop where
  uids_eq : requestUids m attrs = .ok uids
  principal_eq : contribution (js "principal") uids.principal m.principal attrs = .ok principal
  action_eq : contribution (js "action") uids.action {} attrs = .ok action
  resource_eq : contribution (js "resource") uids.resource m.resource attrs = .ok resource

theorem requestUids_types {m : ResolvedMapping} {attrs : Attributes} {uids : RequestUids}
    (h : requestUids m attrs = .ok uids) : uids.principal ≠ uids.action := by
  rw [requestUids] at h
  obtain ⟨_, -, h⟩ := bind_eq_ok h
  obtain ⟨_, -, h⟩ := bind_eq_ok h
  obtain ⟨_, -, h⟩ := bind_eq_ok h
  obtain ⟨_, -, h⟩ := bind_eq_ok h
  obtain rfl := Except.ok.inj h
  intro heq
  exact m.types_differ (CedarEntityUid.mk.inj heq).1

/-- A request was built from three contributions, or refused while they were read, or by
`requestEntities`. -/
theorem build_cases (m : ResolvedMapping) (attrs : Attributes) :
    (∃ e, buildCedarRequest m attrs = .error e ∧ e.isShared = false) ∨
      ∃ uids principal action resource, Built m attrs uids principal action resource ∧
        buildCedarRequest m attrs =
          (requestEntities m.sharedEntity [principal, { action with described := false }, resource]).map
            fun entities =>
              { principal := uids.principal, action := uids.action, resource := uids.resource
                context := buildContext m.context attrs, entities } := by
  cases huids : requestUids m attrs with
  | error e =>
    exact Or.inl ⟨e, by simp [buildCedarRequest, huids, bind, Except.bind], requestUids_not_shared huids⟩
  | ok uids =>
  cases hprincipal : contribution (js "principal") uids.principal m.principal attrs with
  | error e =>
    exact Or.inl ⟨e, by simp [buildCedarRequest, huids, hprincipal, bind, Except.bind],
      contribution_not_shared hprincipal⟩
  | ok principal =>
  cases haction : contribution (js "action") uids.action {} attrs with
  | error e =>
    exact Or.inl ⟨e, by simp [buildCedarRequest, huids, hprincipal, haction, bind, Except.bind],
      contribution_not_shared haction⟩
  | ok action =>
  cases hresource : contribution (js "resource") uids.resource m.resource attrs with
  | error e =>
    exact Or.inl ⟨e, by
      simp [buildCedarRequest, huids, hprincipal, haction, hresource, bind, Except.bind],
      contribution_not_shared hresource⟩
  | ok resource =>
  refine Or.inr ⟨uids, principal, action, resource, ⟨huids, hprincipal, haction, hresource⟩, ?_⟩
  simp only [buildCedarRequest, huids, hprincipal, haction, hresource, bind, Except.bind]
  cases requestEntities m.sharedEntity [principal, { action with described := false }, resource] <;> rfl

/-! ## The role that comes last -/

section Later

variable {sharing : SharedEntity} {held : OrderedMap Str Held} {record : Held} {c : Contribution}
  {config offered : EntityMappingConfig} {attrs : Attributes}

/-- A mapping that adds nothing and contradicts nothing leaves the description as it is. -/
theorem absorb_repeats (hrecord : Describes record config attrs) (h : Says c offered attrs)
    (hnot : ¬ AddsOrContradicts config offered attrs) :
    (absorb record c).entity.uid = record.entity.uid ∧
      (absorb record c).entity.attrs = record.entity.attrs ∧
      ∀ p, p ∈ (absorb record c).entity.parents ↔ p ∈ record.entity.parents := by
  have htook := absorb_takes hrecord.keyed h
  refine ⟨htook.uid, ?_, fun p => ?_⟩
  · rw [htook.attrs]
    refine foldl_absorbAttr_of_has fun e he => ?_
    have hgives : mappedAt offered attrs e.1 = some e.2 := by
      rw [← h.get?_attrs]
      exact (c.attrs.get?_eq_some_iff e.1 e.2).2 he
    rw [hrecord.attrs_eq, OrderedMap.has, get?_buildEntityAttrs]
    by_cases hmine : e.1 ∈ config.attributes.keys
    · by_contra hhas
      refine hnot (.sharedAttribute e.1 hmine (declared_of_mappedAt hgives) ?_)
      rw [Option.not_isSome_iff_eq_none.1 hhas, hgives]
      simp
    · exact absurd (.ownAttribute e.1 hmine e.2 hgives) hnot
  · rw [htook.mem_parents, h.exists_entry, hrecord.mem_parents]
    refine ⟨fun hp => hp.elim id fun hgives => ?_, Or.inl⟩
    by_cases hmine : p.type ∈ config.parents.keys
    · have htheirs : p.type ∈ offered.parents.keys := by
        obtain ⟨e, he, hpe⟩ := h.exists_entry.2 hgives
        obtain ⟨hdeclared, heq⟩ := h.mem_entries.1 he
        rw [heq] at hpe
        exact (mem_uidsAt.1 hpe).1 ▸ hdeclared
      by_contra hmissing
      exact hnot (.sharedParents p.type hmine htheirs fun hsame => hmissing ((hsame p.id).2 hgives))
    · exact absurd (.ownParents p.type hmine p.id hgives) hnot

/-- What `reconcile` makes of a role that repeats what is held. -/
theorem reconcile_repeats (hget : held.get? (uidKey c.uid) = some record)
    (hrecord : Describes record config attrs) (h : Says c offered attrs)
    (hnot : ¬ AddsOrContradicts config offered attrs) :
    ∃ record', reconcile sharing held c = .ok (held.set (uidKey c.uid) record') ∧
      record'.entity.uid = record.entity.uid ∧ record'.entity.attrs = record.entity.attrs ∧
      (∀ p, p ∈ record'.entity.parents ↔ p ∈ record.entity.parents) ∧
      record'.described = (record.described || c.described) := by
  let joined : Held :=
    { record with roles := record.roles ++ [c.role], described := record.described || c.described }
  have hjoined : Describes joined config attrs :=
    ⟨⟨hrecord.keyed.listed, hrecord.keyed.kept⟩, hrecord.attrs_eq, hrecord.mem_names,
      hrecord.get?_parents, hrecord.mem_parents⟩
  obtain ⟨huid, hattrs, hparents⟩ := absorb_repeats hjoined h hnot
  refine ⟨absorb joined c, ?_, huid, hattrs, hparents, (absorb_takes hjoined.keyed h).described⟩
  simp [reconcile, hget, (strictDifference_eq_none_iff hrecord h).2 hnot,
    mergeConflict_of_repeats hrecord h hnot, joined]

/-- What it makes of one that does not, where the strict comparison is made. -/
theorem reconcile_refuses (hget : held.get? (uidKey c.uid) = some record)
    (hstrict : sharing = .strict ∨ record.described = false)
    (hrecord : Describes record config attrs) (h : Says c offered attrs)
    (hadds : AddsOrContradicts config offered attrs) : ∃ e, reconcile sharing held c = .error e := by
  obtain ⟨difference, hdifference⟩ := Option.ne_none_iff_exists'.1 fun hnone =>
    (strictDifference_eq_none_iff hrecord h).1 hnone hadds
  exact ⟨_, by simp [reconcile, hget, hstrict, hdifference]; rfl⟩

end Later

/-! ## The request -/

/-- The resource names the entity of an earlier role: the principal's, or the request's own action,
which no mapping describes. -/
inductive SharesWith (m : ResolvedMapping) (uids : RequestUids) : EntityMappingConfig → Prop where
  | principal (one : uids.principal = uids.resource) : SharesWith m uids m.principal
  | action (one : uids.resource = uids.action) : SharesWith m uids {}

/-- The resource's mapping may repeat but not add: under `"strict"`, and of the action always. -/
def AddsNothing (m : ResolvedMapping) (uids : RequestUids) : Prop :=
  m.sharedEntity = .strict ∨ uids.resource = uids.action

/-- The entry of an entity: there is one, and a mapping alone says what it holds. -/
def DescribedAlone (request : CedarRequest) (uid : CedarEntityUid) (config : EntityMappingConfig)
    (attrs : Attributes) : Prop :=
  ∃ entry, request.entities.filter (fun e => e.uid = uid) = [entry] ∧
    entry.attrs = buildEntityAttrs config.attributes attrs ∧
    ∀ p, p ∈ entry.parents ↔ p.id ∈ parentsAt config attrs p.type

section Request

variable {m : ResolvedMapping} {attrs : Attributes} {uids : RequestUids}
  {principal action resource : Contribution}

/-- The action as it takes part: it describes nothing. -/
abbrev undescribed (c : Contribution) : Contribution := { c with described := false }

/-- The entities a request holds of what is held. -/
def entitiesOf (held : OrderedMap Str Held) : List CedarEntity :=
  (held.entries.filter fun e => e.2.described).map fun e => e.2.entity

theorem requestEntities_eq (h : Built m attrs uids principal action resource) :
    requestEntities m.sharedEntity [principal, undescribed action, resource] =
      reconcile m.sharedEntity (heldBefore principal (undescribed action)) resource >>= fun held =>
        refuseCycles (entitiesOf held) >>= fun _ => .ok (entitiesOf held) := by
  have hne : principal.uid ≠ (undescribed action).uid := by
    rw [(contribution_ok h.principal_eq).1]
    show uids.principal ≠ action.uid
    rw [(contribution_ok h.action_eq).1]
    exact requestUids_types h.uids_eq
  rw [requestEntities, foldlM_reconcile hne]
  rfl

/-- How a request that was built came about. -/
theorem built_of_ok {request : CedarRequest} (hok : buildCedarRequest m attrs = .ok request) :
    ∃ uids principal action resource held, Built m attrs uids principal action resource ∧
      reconcile m.sharedEntity (heldBefore principal (undescribed action)) resource = .ok held ∧
      refuseCycles (entitiesOf held) = .ok () ∧
      request.principal = uids.principal ∧ request.action = uids.action ∧
      request.resource = uids.resource ∧ request.context = buildContext m.context attrs ∧
      request.entities = entitiesOf held := by
  rcases build_cases m attrs with ⟨e, he, -⟩ | ⟨uids, principal, action, resource, h, hbuild⟩
  · exact absurd (hok.symm.trans he) (by simp)
  rw [hok, requestEntities_eq h] at hbuild
  cases hheld : reconcile m.sharedEntity (heldBefore principal (undescribed action)) resource with
  | error e =>
    rw [hheld] at hbuild
    exact absurd hbuild (by simp [bind, Except.bind, Except.map])
  | ok held =>
    rw [hheld] at hbuild
    cases hcycles : refuseCycles (entitiesOf held) with
    | error e => exact absurd hbuild (by simp [bind, Except.bind, Except.map, hcycles])
    | ok u =>
      have hrequest : request =
          { principal := uids.principal, action := uids.action, resource := uids.resource
            context := buildContext m.context attrs, entities := entitiesOf held } := by
        simpa [bind, Except.bind, Except.map, hcycles] using hbuild
      subst hrequest
      exact ⟨uids, principal, action, resource, held, h, hheld, hcycles, rfl, rfl, rfl, rfl, rfl⟩

theorem heldBefore_entries (h : Built m attrs uids principal action resource) (c : Contribution)
    (record : Held) :
    ((heldBefore principal (undescribed action)).set (uidKey c.uid) record).entries =
      OrderedMap.setEntry (uidKey c.uid) record
        [(uidKey uids.principal, firstHeld principal), (uidKey uids.action, firstHeld (undescribed action))] := by
  have hne : uidKey uids.principal ≠ uidKey uids.action := fun hkey =>
    requestUids_types h.uids_eq (uidKey_inj.1 hkey)
  rw [heldBefore, (contribution_ok h.principal_eq).1,
    show (undescribed action).uid = uids.action from (contribution_ok h.action_eq).1]
  simp [OrderedMap.set, OrderedMap.setEntry, hne]

/-- What is held of the entity the resource names: what the earlier mapping says, and the entry of
the request that comes of it. -/
theorem shared_held (h : Built m attrs uids principal action resource)
    {earlier : EntityMappingConfig} (hshares : SharesWith m uids earlier) :
    ∃ record, (heldBefore principal (undescribed action)).get? (uidKey resource.uid) = some record ∧
      (AddsNothing m uids → m.sharedEntity = .strict ∨ record.described = false) ∧
      Describes record earlier attrs ∧ record.entity.uid = uids.resource ∧
      ∀ record', record'.described = true → record'.entity.uid = uids.resource →
        (entitiesOf ((heldBefore principal (undescribed action)).set (uidKey resource.uid) record')).filter
          (fun e => e.uid = uids.resource) = [record'.entity] := by
  obtain ⟨hpuid, -, hpdescribed, hpsaid⟩ := contribution_ok h.principal_eq
  obtain ⟨hauid, -, -, hasaid⟩ := contribution_ok h.action_eq
  obtain ⟨hruid, -⟩ := contribution_ok h.resource_eq
  have hdiffer := requestUids_types h.uids_eq
  have hne : uidKey uids.principal ≠ uidKey uids.action := fun hkey => hdiffer (uidKey_inj.1 hkey)
  obtain ⟨hpdesc, hpheld, hpflag⟩ := firstHeld_describes hpsaid
  obtain ⟨hadesc, haheld, haflag⟩ := firstHeld_describes (c := undescribed action)
    ⟨hasaid.attrs_eq, hasaid.names_eq, hasaid.parents_eq⟩
  cases hshares with
  | principal one =>
    refine ⟨firstHeld principal, ?_, ?_, hpdesc, ?_, fun record' hdescribed huid => ?_⟩
    · rw [heldBefore, OrderedMap.get?_set, OrderedMap.get?_set, hpuid, hruid, ← one,
        show (undescribed action).uid = uids.action from hauid, if_neg hne.symm, if_pos rfl]
    · rintro (hstrict | haction)
      · exact Or.inl hstrict
      · exact absurd (one.trans haction) hdiffer
    · rw [hpheld, hpuid, one]
    · rw [entitiesOf, heldBefore_entries h, hruid, ← one, OrderedMap.setEntry, if_pos rfl]
      simp [hdescribed, haflag, huid, one]
  | action one =>
    refine ⟨firstHeld (undescribed action), ?_, fun _ => Or.inr haflag, hadesc, ?_,
      fun record' hdescribed huid => ?_⟩
    · rw [heldBefore, OrderedMap.get?_set, hruid, one,
        show (undescribed action).uid = uids.action from hauid, if_pos rfl]
    · rw [haheld, one]
      exact hauid
    · rw [entitiesOf, heldBefore_entries h, hruid, one, OrderedMap.setEntry, if_neg hne,
        OrderedMap.setEntry, if_pos rfl]
      have hother : (firstHeld principal).entity.uid ≠ uids.action := by
        rw [hpheld, hpuid]
        exact hdiffer
      simp [hdescribed, hpflag, hpdescribed, hother, huid, one]

theorem shared_refuses (h : Built m attrs uids principal action resource)
    {earlier : EntityMappingConfig} (hshares : SharesWith m uids earlier) (hnothing : AddsNothing m uids)
    (hadds : AddsOrContradicts earlier m.resource attrs) :
    ∃ e, requestEntities m.sharedEntity [principal, undescribed action, resource] = .error e := by
  obtain ⟨record, hget, hstrict, hrecord, -⟩ := shared_held h hshares
  obtain ⟨-, -, -, hrsaid⟩ := contribution_ok h.resource_eq
  obtain ⟨e, he⟩ := reconcile_refuses hget (hstrict hnothing) hrecord hrsaid hadds
  exact ⟨e, by rw [requestEntities_eq h, he]; rfl⟩

theorem shared_describes (h : Built m attrs uids principal action resource)
    {earlier : EntityMappingConfig} (hshares : SharesWith m uids earlier)
    (hnot : ¬ AddsOrContradicts earlier m.resource attrs) :
    ∃ held entry, reconcile m.sharedEntity (heldBefore principal (undescribed action)) resource = .ok held ∧
      (entitiesOf held).filter (fun e => e.uid = uids.resource) = [entry] ∧
      entry.attrs = buildEntityAttrs earlier.attributes attrs ∧
      ∀ p, p ∈ entry.parents ↔ p.id ∈ parentsAt earlier attrs p.type := by
  obtain ⟨record, hget, -, hrecord, huid, hentry⟩ := shared_held h hshares
  obtain ⟨-, -, hrdescribed, hrsaid⟩ := contribution_ok h.resource_eq
  obtain ⟨record', hok, huid', hattrs, hparents, hdescribed⟩ :=
    reconcile_repeats hget hrecord hrsaid hnot
  refine ⟨_, record'.entity, hok, hentry record' ?_ (huid'.trans huid), hattrs.trans hrecord.attrs_eq,
    fun p => (hparents p).trans (hrecord.mem_parents p)⟩
  rw [hdescribed, hrdescribed, Bool.or_true]

/-- A resource no earlier role names is a new entry. -/
theorem unshared_reconciles (h : Built m attrs uids principal action resource)
    (hunshared : ∀ earlier, ¬ SharesWith m uids earlier) :
    ∃ held, reconcile m.sharedEntity (heldBefore principal (undescribed action)) resource = .ok held := by
  obtain ⟨hpuid, -⟩ := contribution_ok h.principal_eq
  obtain ⟨hauid, -⟩ := contribution_ok h.action_eq
  obtain ⟨hruid, -⟩ := contribution_ok h.resource_eq
  refine ⟨_, reconcile_new ?_⟩
  rw [heldBefore, OrderedMap.get?_set, OrderedMap.get?_set, hpuid, hruid,
    show (undescribed action).uid = uids.action from hauid, if_neg, if_neg, OrderedMap.get?_empty]
  · exact fun hkey => hunshared _ (.principal (uidKey_inj.1 hkey))
  · exact fun hkey => hunshared _ (.action (uidKey_inj.1 hkey).symm)

/-- Once the roles are reconciled, only a cycle refuses the request. -/
theorem requestEntities_of_reconciled (h : Built m attrs uids principal action resource)
    {held : OrderedMap Str Held}
    (hheld : reconcile m.sharedEntity (heldBefore principal (undescribed action)) resource = .ok held) :
    requestEntities m.sharedEntity [principal, undescribed action, resource] = .ok (entitiesOf held) ∨
      requestEntities m.sharedEntity [principal, undescribed action, resource] = .error .cycle := by
  have hrest : requestEntities m.sharedEntity [principal, undescribed action, resource] =
      refuseCycles (entitiesOf held) >>= fun _ => .ok (entitiesOf held) := by
    rw [requestEntities_eq h, hheld]
    rfl
  rw [hrest]
  cases hcycles : refuseCycles (entitiesOf held) with
  | error e =>
    obtain rfl := refuseCycles_error hcycles
    exact Or.inr rfl
  | ok u => exact Or.inl rfl

/-- A request that was built, on which the resource names the entity of an earlier role and may add
nothing, holds one entry for it, as the earlier mapping alone describes it. -/
theorem describedAlone_of_ok {request : CedarRequest} (hok : buildCedarRequest m attrs = .ok request)
    {earlier : EntityMappingConfig}
    (hshares : ∀ uids, requestUids m attrs = .ok uids → uids.principal = request.principal →
      uids.action = request.action → uids.resource = request.resource →
        SharesWith m uids earlier ∧ AddsNothing m uids) :
    DescribedAlone request request.resource earlier attrs := by
  rcases build_cases m attrs with ⟨e, he, -⟩ | ⟨uids, principal, action, resource, h, hbuild⟩
  · rw [hok] at he
    exact absurd he (by simp)
  rw [hok] at hbuild
  cases hentities : requestEntities m.sharedEntity [principal, undescribed action, resource] with
  | error e =>
    rw [hentities] at hbuild
    exact absurd hbuild (by simp [Except.map])
  | ok entities =>
    rw [hentities] at hbuild
    obtain rfl := Except.ok.inj hbuild
    obtain ⟨hshares, hnothing⟩ := hshares uids h.uids_eq rfl rfl rfl
    by_cases hadds : AddsOrContradicts earlier m.resource attrs
    · obtain ⟨e, he⟩ := shared_refuses h hshares hnothing hadds
      rw [hentities] at he
      exact absurd he (by simp)
    · obtain ⟨held, entry, hheld, hone, hattrs, hparents⟩ := shared_describes h hshares hadds
      rcases requestEntities_of_reconciled h hheld with hres | hres
      · rw [hentities] at hres
        obtain rfl := Except.ok.inj hres
        exact ⟨entry, hone, hattrs, hparents⟩
      · rw [hentities] at hres
        exact absurd hres (by simp)

end Request

/-- What `sharedEntity` promises of one mapping and one attribute map. -/
structure SharedEntityHolds (m : ResolvedMapping) (attrs : Attributes) : Prop where
  /-- Under `"strict"` the principal's mapping alone describes an entity both roles name. -/
  strict : m.sharedEntity = .strict → ∀ request, buildCedarRequest m attrs = .ok request →
    request.principal = request.resource →
      DescribedAlone request request.principal m.principal attrs
  /-- Under either setting the request's own action is described by nobody. -/
  action : ∀ request, buildCedarRequest m attrs = .ok request → request.resource = request.action →
    ∃ entry, request.entities.filter (fun e => e.uid = request.resource) = [entry] ∧
      entry.attrs = ∅ ∧ entry.parents = []
  /-- A resource mapping that may add nothing, and would add or contradict anything, refuses the
  request. -/
  refused : ∀ uids earlier, requestUids m attrs = .ok uids → SharesWith m uids earlier →
    AddsNothing m uids → AddsOrContradicts earlier m.resource attrs →
      ∃ e, buildCedarRequest m attrs = .error e
  /-- One that would not is no reason to refuse it, and neither is an entity no other role names. -/
  not_refused : ∀ uids, requestUids m attrs = .ok uids →
    (∀ earlier, SharesWith m uids earlier → ¬ AddsOrContradicts earlier m.resource attrs) →
      ∀ e, buildCedarRequest m attrs = .error e → e.isShared = false

/-- For every mapping and every attribute map, nothing the resource's mapping says reaches an entity
that another role describes, or that none may describe. -/
theorem shared_entity_holds (m : ResolvedMapping) (attrs : Attributes) : SharedEntityHolds m attrs := by
  refine ⟨fun hstrict request hok hone => ?_, fun request hok hone => ?_, ?_, ?_⟩
  · rw [hone]
    refine describedAlone_of_ok hok fun uids _ hp _ hr => ⟨.principal ?_, Or.inl hstrict⟩
    rw [hp, hr, hone]
  · obtain ⟨entry, hentry, hattrs, hparents⟩ :
        DescribedAlone request request.resource {} attrs := by
      refine describedAlone_of_ok hok fun uids _ _ ha hr => ?_
      have haction : uids.resource = uids.action := by rw [hr, ha, hone]
      exact ⟨.action haction, Or.inr haction⟩
    refine ⟨entry, hentry, hattrs, List.eq_nil_iff_forall_not_mem.2 fun p hp => ?_⟩
    exact absurd ((hparents p).1 hp) (by simp [parentsAt])
  · intro uids earlier huids hshares hnothing hadds
    rcases build_cases m attrs with ⟨e, he, -⟩ | ⟨uids', principal, action, resource, h, hbuild⟩
    · exact ⟨e, he⟩
    · obtain rfl : uids' = uids := Except.ok.inj (h.uids_eq.symm.trans huids)
      obtain ⟨e, he⟩ := shared_refuses h hshares hnothing hadds
      exact ⟨e, by rw [hbuild, he]; rfl⟩
  · intro uids huids hnot e herror
    rcases build_cases m attrs with ⟨e', he', hshared⟩ | ⟨uids', principal, action, resource, h, hbuild⟩
    · obtain rfl : e' = e := Except.error.inj (he'.symm.trans herror)
      exact hshared
    · obtain rfl : uids' = uids := Except.ok.inj (h.uids_eq.symm.trans huids)
      have hheld : ∃ held,
          reconcile m.sharedEntity (heldBefore principal (undescribed action)) resource = .ok held := by
        by_cases hshares : ∃ earlier, SharesWith m uids' earlier
        · obtain ⟨earlier, hshares⟩ := hshares
          obtain ⟨held, -, hheld, -⟩ := shared_describes h hshares (hnot earlier hshares)
          exact ⟨held, hheld⟩
        · exact unshared_reconciles h (not_exists.1 hshares)
      obtain ⟨held, hheld⟩ := hheld
      rcases requestEntities_of_reconciled h hheld with hres | hres
      · rw [hbuild, hres] at herror
        exact absurd herror (by simp [Except.map])
      · rw [hbuild, hres] at herror
        obtain rfl := Except.error.inj herror
        rfl

end PolicyVerifier.Cedar

import PolicyVerifier.Cedar.Proofs.SharedEntityProofs

/-!
# What a request holds

Every value of a request is a copy of an attribute, at every depth, or a reference the mapping itself
configures: nothing an attribute holds can name an entity.
-/

namespace PolicyVerifier.Cedar

open Js PolicyVerifier.Core ExceptFold

/-! ## Copies of attributes -/

mutual

/-- The value is the attribute, at every depth: strings, booleans, safe integers, and arrays of
such. -/
def Copies : Value → CedarValue → Prop
  | .str s, .str t => s = t
  | .bool a, .bool b => a = b
  | .num m, .num n => m = n.1
  | .arr _ vs, .arr cs => CopiesAll vs cs
  | _, _ => False

/-- The same for the items of an array, one by one. -/
def CopiesAll : List Value → List CedarValue → Prop
  | [], [] => True
  | v :: vs, c :: cs => Copies v c ∧ CopiesAll vs cs
  | _, _ => False

end

mutual

/-- An attribute Cedar can hold: no object, no `null`, nothing absent, no number but a safe integer,
at any depth. -/
def Representable : Value → Prop
  | .str _ => True
  | .bool _ => True
  | .num n => n.isSafeInteger = true
  | .arr _ vs => AllRepresentable vs
  | _ => False

/-- The same for the items of an array. -/
def AllRepresentable : List Value → Prop
  | [] => True
  | v :: vs => Representable v ∧ AllRepresentable vs

end

mutual

/-- No entity reference, at any depth. -/
def Plain : CedarValue → Prop
  | .entity _ => False
  | .arr items => AllPlain items
  | _ => True

/-- The same for the items of an array. -/
def AllPlain : List CedarValue → Prop
  | [] => True
  | v :: vs => Plain v ∧ AllPlain vs

end

mutual

/-- What `toCedarValue` gives is a copy, and a copy is what it gives. -/
theorem toCedarValue_eq_some_iff : ∀ (v : Value) (c : CedarValue), toCedarValue v = some c ↔ Copies v c
  | .undefined, c => by cases c <;> simp [toCedarValue, Copies]
  | .null, c => by cases c <;> simp [toCedarValue, Copies]
  | .obj _ _, c => by cases c <;> simp [toCedarValue, Copies]
  | .other _ _, c => by cases c <;> simp [toCedarValue, Copies]
  | .str s, c => by cases c <;> simp [toCedarValue, Copies]
  | .bool b, c => by cases c <;> simp [toCedarValue, Copies]
  | .num m, c => by
    by_cases hsafe : m.isSafeInteger = true
    · cases c with
      | num n => simp [toCedarValue, Copies, hsafe, Subtype.ext_iff]
      | _ => simp [toCedarValue, Copies, hsafe]
    · cases c with
      | num n =>
        refine iff_of_false (by simp [toCedarValue, hsafe]) fun heq => hsafe ?_
        obtain rfl : m = n.1 := heq
        exact n.2
      | _ => simp [toCedarValue, Copies, hsafe]
  | .arr _ vs, c => by
    cases c with
    | arr cs => simp [toCedarValue, Copies, toCedarValues_eq_some_iff vs cs]
    | _ => simp [toCedarValue, Copies]

theorem toCedarValues_eq_some_iff :
    ∀ (vs : List Value) (cs : List CedarValue), toCedarValues vs = some cs ↔ CopiesAll vs cs
  | [], cs => by cases cs <;> simp [toCedarValues, CopiesAll]
  | v :: vs, [] => by
    refine iff_of_false ?_ id
    unfold toCedarValues
    split
    · simp
    · simp
  | v :: vs, c :: cs => by
    rw [CopiesAll, ← toCedarValue_eq_some_iff v c, ← toCedarValues_eq_some_iff vs cs, toCedarValues]
    cases toCedarValue v with
    | none => simp
    | some c' => simp [and_comm]

end

mutual

/-- `toCedarValue` gives a value exactly for what Cedar can hold. -/
theorem toCedarValue_isSome_iff : ∀ v : Value, (toCedarValue v).isSome = true ↔ Representable v
  | .undefined => by simp [toCedarValue, Representable]
  | .null => by simp [toCedarValue, Representable]
  | .obj _ _ => by simp [toCedarValue, Representable]
  | .other _ _ => by simp [toCedarValue, Representable]
  | .str s => by simp [toCedarValue, Representable]
  | .bool b => by simp [toCedarValue, Representable]
  | .num m => by
    by_cases hsafe : m.isSafeInteger = true
    · simp [toCedarValue, Representable, hsafe]
    · simp [toCedarValue, Representable, hsafe]
  | .arr _ vs => by simp [toCedarValue, Representable, toCedarValues_isSome_iff vs]

theorem toCedarValues_isSome_iff :
    ∀ vs : List Value, (toCedarValues vs).isSome = true ↔ AllRepresentable vs
  | [] => by simp [toCedarValues, AllRepresentable]
  | v :: vs => by
    rw [AllRepresentable, ← toCedarValue_isSome_iff v, ← toCedarValues_isSome_iff vs, toCedarValues]
    cases toCedarValue v with
    | none => simp
    | some c => simp

end

mutual

/-- A copy holds no reference. -/
theorem plain_of_copies : ∀ (v : Value) (c : CedarValue), Copies v c → Plain c
  | _, .bool _, _ => trivial
  | _, .num _, _ => trivial
  | _, .str _, _ => trivial
  | .arr _ vs, .arr cs, h => allPlain_of_copies vs cs h
  | v, .entity _, h => by cases v <;> exact h

theorem allPlain_of_copies :
    ∀ (vs : List Value) (cs : List CedarValue), CopiesAll vs cs → AllPlain cs
  | _, [], _ => trivial
  | v :: vs, c :: cs, h => ⟨plain_of_copies v c h.1, allPlain_of_copies vs cs h.2⟩

end

/-! ## The entries of a request -/

/-- A role whose entity is held and that was reconciled: its attributes are added behind those
held. -/
theorem reconcile_known_ok {sharing : SharedEntity} {held held' : OrderedMap Str Held} {record : Held}
    {c : Contribution} {config offered : EntityMappingConfig} {attrs : Attributes}
    (hget : held.get? (uidKey c.uid) = some record) (hrecord : Describes record config attrs)
    (h : Says c offered attrs) (hok : reconcile sharing held c = .ok held') :
    ∃ record', held' = held.set (uidKey c.uid) record' ∧ record'.entity.uid = record.entity.uid ∧
      record'.described = (record.described || c.described) ∧
      ∀ name, record'.entity.attrs.get? name =
        (mappedAt config attrs name).or (mappedAt offered attrs name) := by
  let joined : Held :=
    { record with roles := record.roles ++ [c.role], described := record.described || c.described }
  have hkeyed : joined.Keyed := ⟨hrecord.keyed.listed, hrecord.keyed.kept⟩
  have htook := absorb_takes hkeyed h
  refine ⟨absorb joined c, ?_, htook.uid, htook.described, fun name => ?_⟩
  · simp only [reconcile, hget] at hok
    split at hok
    · exact absurd hok (by simp)
    · exact (Except.ok.inj hok).symm
  · rw [htook.attrs, get?_foldl_absorbAttr]
    show (record.entity.attrs.get? name).or (c.attrs.get? name) = _
    rw [hrecord.attrs_eq, get?_buildEntityAttrs, h.get?_attrs]

section Request

variable {m : ResolvedMapping} {attrs : Attributes} {request : CedarRequest}

/-- What an entity's mappings give an attribute name: the principal's mapping where it is the
principal, and the resource's where it is the resource. -/
def entityAttr (m : ResolvedMapping) (attrs : Attributes) (request : CedarRequest)
    (uid : CedarEntityUid) (name : Str) : Option CedarValue :=
  (if uid = request.principal then mappedAt m.principal attrs name else none).or
    (if uid = request.resource then mappedAt m.resource attrs name else none)

/-- The description of the entity the resource names, once it was reconciled. -/
theorem resource_held {uids : RequestUids} {principal action resource : Contribution}
    {held : OrderedMap Str Held} (h : Built m attrs uids principal action resource)
    (hheld : reconcile m.sharedEntity (heldBefore principal (undescribed action)) resource = .ok held) :
    ∃ record, held = (heldBefore principal (undescribed action)).set (uidKey resource.uid) record ∧
      record.entity.uid = uids.resource ∧ ∀ name, record.entity.attrs.get? name =
        (if uids.resource = uids.principal then mappedAt m.principal attrs name else none).or
          (mappedAt m.resource attrs name) := by
  obtain ⟨hpuid, -, -, -⟩ := contribution_ok h.principal_eq
  obtain ⟨hruid, -, -, hrsaid⟩ := contribution_ok h.resource_eq
  have hdiffer := requestUids_types h.uids_eq
  by_cases hshares : ∃ earlier, SharesWith m uids earlier
  · obtain ⟨earlier, hshares⟩ := hshares
    obtain ⟨record, hget, -, hrecord, huid, -⟩ := shared_held h hshares
    obtain ⟨record', rfl, huid', -, hattrs⟩ := reconcile_known_ok hget hrecord hrsaid hheld
    refine ⟨record', rfl, huid'.trans huid, fun name => ?_⟩
    rw [hattrs]
    cases hshares with
    | principal one => rw [if_pos one.symm]
    | action one =>
      rw [if_neg fun heq => hdiffer (heq.symm.trans one)]
      rfl
  · obtain ⟨held', hheld'⟩ := unshared_reconciles h (not_exists.1 hshares)
    have hne : uids.resource ≠ uids.principal := fun heq => hshares ⟨_, .principal heq.symm⟩
    have hnone : (heldBefore principal (undescribed action)).get? (uidKey resource.uid) = none := by
      have hpkey : ¬ uidKey uids.principal = uidKey uids.resource := fun hkey =>
        hne (uidKey_inj.1 hkey).symm
      have hakey : ¬ uidKey uids.action = uidKey uids.resource := fun hkey =>
        hshares ⟨_, .action (uidKey_inj.1 hkey).symm⟩
      rw [heldBefore, OrderedMap.get?_set, OrderedMap.get?_set, hpuid, hruid,
        show (undescribed action).uid = uids.action from (contribution_ok h.action_eq).1, if_neg hakey,
        if_neg hpkey, OrderedMap.get?_empty]
    rw [reconcile_new hnone] at hheld
    obtain ⟨hrdesc, hrheld, -⟩ := firstHeld_describes hrsaid
    refine ⟨firstHeld resource, (Except.ok.inj hheld).symm, hrheld.trans hruid, fun name => ?_⟩
    rw [if_neg hne, hrdesc.attrs_eq, get?_buildEntityAttrs]
    rfl

/-- Every entry is the principal's or the resource's, and every attribute of it is what its mappings
give. -/
theorem get?_entityAttrs (hok : buildCedarRequest m attrs = .ok request) :
    ∀ e ∈ request.entities, (e.uid = request.principal ∨ e.uid = request.resource) ∧
      ∀ name, e.attrs.get? name = entityAttr m attrs request e.uid name := by
  obtain ⟨uids, principal, action, resource, held, h, hheld, -, hprincipal, -, hresource, -,
    hentities⟩ := built_of_ok hok
  obtain ⟨record, rfl, huid, hattrs⟩ := resource_held h hheld
  obtain ⟨hpuid, -, -, hpsaid⟩ := contribution_ok h.principal_eq
  obtain ⟨hauid, -, -, hasaid⟩ := contribution_ok h.action_eq
  obtain ⟨hruid, -⟩ := contribution_ok h.resource_eq
  obtain ⟨hpdesc, hpheld, -⟩ := firstHeld_describes hpsaid
  obtain ⟨-, -, haflag⟩ := firstHeld_describes (c := undescribed action)
    ⟨hasaid.attrs_eq, hasaid.names_eq, hasaid.parents_eq⟩
  intro e he
  rw [hentities, entitiesOf] at he
  obtain ⟨⟨key, entry⟩, hentry, rfl⟩ := List.mem_map.1 he
  obtain ⟨hentry, hdescribed⟩ := List.mem_filter.1 hentry
  have hget := (OrderedMap.get?_eq_some_iff _ key entry).2 hentry
  rw [heldBefore, OrderedMap.get?_set, OrderedMap.get?_set, OrderedMap.get?_set, hpuid, hruid] at hget
  simp only [entityAttr, hprincipal, hresource]
  by_cases hrkey : uidKey uids.resource = key
  · rw [if_pos hrkey] at hget
    obtain rfl := Option.some.inj hget
    refine ⟨Or.inr huid, fun name => ?_⟩
    rw [hattrs, huid, if_pos rfl]
  · rw [if_neg hrkey] at hget
    by_cases hakey : uidKey (undescribed action).uid = key
    · -- the action describes nothing, so it has no entry of its own
      rw [if_pos hakey] at hget
      obtain rfl := Option.some.inj hget
      rw [haflag] at hdescribed
      exact absurd hdescribed (by simp)
    · rw [if_neg hakey] at hget
      by_cases hpkey : uidKey uids.principal = key
      · rw [if_pos hpkey] at hget
        obtain rfl := Option.some.inj hget
        have huid' : (firstHeld principal).entity.uid = uids.principal := hpheld.trans hpuid
        have hne : uids.principal ≠ uids.resource := fun heq => hrkey (heq ▸ hpkey)
        refine ⟨Or.inl huid', fun name => ?_⟩
        rw [huid', if_pos rfl, if_neg hne, Option.or_none, hpdesc.attrs_eq, get?_buildEntityAttrs]
      · rw [if_neg hpkey] at hget
        exact absurd hget (by simp)

/-! ## Nothing names an entity but the mapping -/

/-- What an attribute mapping gives: a copy of the attribute, or the reference it configures to a
non-empty string attribute. -/
inductive Gives (attrs : Attributes) : AttributeMapping → CedarValue → Prop where
  | copy (attrKey : Str) (v : CedarValue) (copies : Copies (valueAt attrs attrKey) v) :
      Gives attrs (.copy attrKey) v
  | reference (attrKey entityType id : Str) (found : valueAt attrs attrKey = .str id) (ne : id ≠ []) :
      Gives attrs (.reference attrKey entityType) (.entity ⟨entityType, id⟩)

/-- Whether what an attribute mapping reads is wholly representable. -/
def Mappable (attrs : Attributes) : AttributeMapping → Prop
  | .copy attrKey => Representable (valueAt attrs attrKey)
  | .reference attrKey _ => ∃ id, valueAt attrs attrKey = .str id ∧ id ≠ []

theorem mappedValue_eq_some_iff {attrs : Attributes} {mapping : AttributeMapping} {v : CedarValue} :
    mappedValue attrs mapping = some v ↔ Gives attrs mapping v := by
  cases mapping with
  | copy attrKey =>
    rw [mappedValue, toCedarValue_eq_some_iff]
    refine ⟨.copy attrKey v, fun h => ?_⟩
    cases h with
    | copy _ _ copies => exact copies
  | reference attrKey entityType =>
    constructor
    · intro h
      rw [mappedValue] at h
      split at h
      · rename_i raw hraw
        split at h
        · exact absurd h (by simp)
        · rename_i hne
          obtain rfl := Option.some.inj h
          exact .reference attrKey entityType raw hraw hne
      · exact absurd h (by simp)
    · intro h
      cases h with
      | reference _ _ id found ne => rw [mappedValue, found]; exact if_neg ne

theorem mappedValue_isSome_iff {attrs : Attributes} {mapping : AttributeMapping} :
    (mappedValue attrs mapping).isSome = true ↔ Mappable attrs mapping := by
  cases mapping with
  | copy attrKey => exact toCedarValue_isSome_iff _
  | reference attrKey entityType =>
    rw [Option.isSome_iff_exists]
    constructor
    · rintro ⟨v, hv⟩
      cases mappedValue_eq_some_iff.1 hv with
      | reference _ _ id found ne => exact ⟨id, found, ne⟩
    · rintro ⟨id, found, ne⟩
      exact ⟨_, mappedValue_eq_some_iff.2 (.reference attrKey entityType id found ne)⟩

/-- The attribute mappings that may describe an entry under a name. -/
def mappingsOf (m : ResolvedMapping) (request : CedarRequest) (uid : CedarEntityUid) (name : Str)
    (mapping : AttributeMapping) : Prop :=
  (uid = request.principal ∧ m.principal.attributes.get? name = some mapping) ∨
    (uid = request.resource ∧ m.resource.attributes.get? name = some mapping)

/-- What holds of the values of a request. -/
structure NothingSmuggled (m : ResolvedMapping) (attrs : Attributes) (request : CedarRequest) : Prop where
  /-- A context value is a copy of the attribute mapped to its name, with no reference in it. -/
  context : ∀ name v, request.context.get? name = some v →
    ∃ attrKey, m.context.get? name = some attrKey ∧ Copies (valueAt attrs attrKey) v ∧ Plain v
  /-- A context value is there exactly when its attribute is representable. -/
  context_present : ∀ name, request.context.has name = true ↔
    ∃ attrKey, m.context.get? name = some attrKey ∧ Representable (valueAt attrs attrKey)
  /-- An attribute of an entry is a copy, with no reference in it, or the reference its mapping
  configures. -/
  entity : ∀ e ∈ request.entities, ∀ name v, e.attrs.get? name = some v →
    ∃ mapping, mappingsOf m request e.uid name mapping ∧ Gives attrs mapping v ∧
      (Plain v ∨ ∃ attrKey entityType id, mapping = .reference attrKey entityType ∧
        v = .entity ⟨entityType, id⟩)
  /-- An attribute of an entry is there exactly when what a mapping of it reads is representable. -/
  entity_present : ∀ e ∈ request.entities, ∀ name, e.attrs.has name = true ↔
    ∃ mapping, mappingsOf m request e.uid name mapping ∧ Mappable attrs mapping

theorem entityAttr_eq_some {uid : CedarEntityUid} {name : Str} {v : CedarValue}
    (h : entityAttr m attrs request uid name = some v) :
    ∃ mapping, mappingsOf m request uid name mapping ∧ Gives attrs mapping v := by
  have hmapped : ∀ config : EntityMappingConfig, mappedAt config attrs name = some v →
      ∃ mapping, config.attributes.get? name = some mapping ∧ Gives attrs mapping v := by
    intro config hvalue
    obtain ⟨mapping, hmapping, hgives⟩ := Option.bind_eq_some_iff.1 hvalue
    exact ⟨mapping, hmapping, mappedValue_eq_some_iff.1 hgives⟩
  rcases Option.or_eq_some_iff.1 h with hp | ⟨-, hr⟩
  · split at hp
    · rename_i huid
      obtain ⟨mapping, hmapping, hgives⟩ := hmapped _ hp
      exact ⟨mapping, Or.inl ⟨huid, hmapping⟩, hgives⟩
    · exact absurd hp (by simp)
  · split at hr
    · rename_i huid
      obtain ⟨mapping, hmapping, hgives⟩ := hmapped _ hr
      exact ⟨mapping, Or.inr ⟨huid, hmapping⟩, hgives⟩
    · exact absurd hr (by simp)

theorem mappable_of_gives {mapping : AttributeMapping} {v : CedarValue} (h : Gives attrs mapping v) :
    Mappable attrs mapping :=
  mappedValue_isSome_iff.1 (Option.isSome_iff_exists.2 ⟨v, mappedValue_eq_some_iff.2 h⟩)

theorem entityAttr_isSome_iff {uid : CedarEntityUid} {name : Str} :
    (entityAttr m attrs request uid name).isSome = true ↔
      ∃ mapping, mappingsOf m request uid name mapping ∧ Mappable attrs mapping := by
  constructor
  · intro h
    obtain ⟨v, hv⟩ := Option.isSome_iff_exists.1 h
    obtain ⟨mapping, hof, hgives⟩ := entityAttr_eq_some hv
    exact ⟨mapping, hof, mappable_of_gives hgives⟩
  · rintro ⟨mapping, hof, hmappable⟩
    obtain ⟨v, hv⟩ := Option.isSome_iff_exists.1 (mappedValue_isSome_iff.2 hmappable)
    rcases hof with ⟨huid, hmapping⟩ | ⟨huid, hmapping⟩
    · have hp : mappedAt m.principal attrs name = some v := by simp [mappedAt, hmapping, hv]
      simp [entityAttr, huid, hp]
    · have hr : mappedAt m.resource attrs name = some v := by simp [mappedAt, hmapping, hv]
      simp [entityAttr, huid, hr]

theorem get?_buildContext (mappings : OrderedMap Str Str) (attrs : Attributes) (name : Str) :
    (buildContext mappings attrs).get? name =
      (mappings.get? name).bind fun attrKey => toCedarValue (valueAt attrs attrKey) := by
  rw [buildContext, get?_foldl_defineOwn (fun attrKey => toCedarValue (valueAt attrs attrKey)) _
    mappings.nodup]
  exact Option.or_none

/-- For every mapping and every attribute map, no attribute can smuggle a reference into the request
that is built of it. -/
theorem nothing_smuggled (m : ResolvedMapping) (attrs : Attributes) (request : CedarRequest)
    (hok : buildCedarRequest m attrs = .ok request) : NothingSmuggled m attrs request := by
  obtain ⟨_, _, _, _, _, -, -, -, -, -, -, hcontext, -⟩ := built_of_ok hok
  refine ⟨fun name v hv => ?_, fun name => ?_, fun e he name v hv => ?_, fun e he name => ?_⟩
  · rw [hcontext, get?_buildContext] at hv
    obtain ⟨attrKey, hkey, hvalue⟩ := Option.bind_eq_some_iff.1 hv
    have hcopies := (toCedarValue_eq_some_iff _ _).1 hvalue
    exact ⟨attrKey, hkey, hcopies, plain_of_copies _ _ hcopies⟩
  · rw [OrderedMap.has, hcontext, get?_buildContext]
    cases m.context.get? name with
    | none => simp
    | some attrKey =>
      show (toCedarValue (valueAt attrs attrKey)).isSome = true ↔ _
      simp [toCedarValue_isSome_iff]
  · rw [(get?_entityAttrs hok e he).2 name] at hv
    obtain ⟨mapping, hof, hgives⟩ := entityAttr_eq_some hv
    refine ⟨mapping, hof, hgives, ?_⟩
    cases hgives with
    | copy attrKey v copies => exact Or.inl (plain_of_copies _ _ copies)
    | reference attrKey entityType id found ne => exact Or.inr ⟨attrKey, entityType, id, rfl, rfl⟩
  · rw [OrderedMap.has, (get?_entityAttrs hok e he).2 name, entityAttr_isSome_iff]

end Request

/-- Documents with an owner, beside a context of tags and of a caller's own words. -/
def ownedDocuments : ResolvedMapping :=
  { principalType := js "User", principalIdAttribute := js "userId", principal := {}
    actionType := js "Action", actionIdAttribute := js "requestAction"
    resourceTypeAttribute := js "requestResourceType", resourceIdAttribute := js "requestResourceId"
    resourceIdWhenAbsent := []
    resource :=
      { attributes := OrderedMap.ofList [(js "owner", .reference (js "ownerId") (js "User"))] }
    context := OrderedMap.ofList [(js "tags", js "tags"), (js "__proto__", js "said")]
    sharedEntity := .strict, types_differ := default_types_differ }

/-- A request whose caller holds an object that reads as a reference. -/
def impersonating : Attributes :=
  OrderedMap.ofList
    [(js "userId", .str (js "mallory")), (js "requestAction", .str (js "read")),
      (js "requestResourceType", .str (js "Document")), (js "ownerId", .str (js "alice")),
      (js "tags", .list [.str (js "draft")]),
      (js "said", .obj 0 [(js "type", .str (js "User")), (js "id", .str (js "alice"))])]

theorem impersonation_not_smuggled :
    ∃ request, buildCedarRequest ownedDocuments impersonating = .ok request ∧
      NothingSmuggled ownedDocuments impersonating request := by
  obtain ⟨request, hok⟩ :
      ∃ request, buildCedarRequest ownedDocuments impersonating = .ok request := ⟨_, rfl⟩
  exact ⟨request, hok, nothing_smuggled ownedDocuments impersonating request hok⟩

end PolicyVerifier.Cedar

import PolicyVerifier.Builtins.Proofs.CollectorProofs
import PolicyVerifier.Cedar.Proofs.AnswerTableProofs
import PolicyVerifier.Cedar.Proofs.SharedEntityProofs
import PolicyVerifier.Cedar.RequestFacts

/-!
# What Cedar is asked about

The keys a Cedar request is named by are reserved, so no mapping of a config reaches them: an engine is asked about
the subject of the token, and about the action and the resource of the request that came in.
-/

namespace PolicyVerifier.Cedar

open Js PolicyVerifier.Core PolicyVerifier.Builtins ExceptFold

/-! ## The keys that are reserved -/

/-- The registry once core and this package are loaded: this package's call went through, whatever other packages
reserved before it and after it. -/
def CedarLoaded (keys : AttributeKeyRegistry) : Prop :=
  ∃ earlier later,
    ((RegistryState.after {} (some coreReservation :: earlier)).call (some cedarReservation)).1 = .ok () ∧
    keys.state =
      ((RegistryState.after {} (some coreReservation :: earlier)).call (some cedarReservation)).2.after later

/-- A key of this package is its own. -/
theorem CedarLoaded.reserved {keys : AttributeKeyRegistry} (h : CedarLoaded keys) {key : Str}
    (hkey : key ∈ cedarAttributeKeys) : ∃ held, keys.attributeKeyReservation key = some held ∧
      held.owner = cedarAttributeKeyOwner := by
  obtain ⟨earlier, later, hcall, hstate⟩ := h
  obtain ⟨owner, values, reason, -, hrequest, hvalues⟩ := RegistryState.settled_call hcall
  obtain ⟨howner, hlist, -⟩ := AttributeKeyReservationRequest.mk.inj (Option.some.inj hrequest)
  obtain rfl := Value.str.inj howner
  obtain ⟨rfl, -⟩ := ReservationKeys.iterable.inj hlist
  obtain ⟨k, held, hk, -, hheld, hmine⟩ := hvalues (.str key) (List.mem_map_of_mem hkey)
  obtain rfl := Value.str.inj hk
  have hkept := RegistryState.kept_after _ later key held hheld
  rw [← hstate] at hkept
  exact ⟨held, hkept, hmine⟩

/-- The user's id is core's. -/
theorem CedarLoaded.userId {keys : AttributeKeyRegistry} (h : CedarLoaded keys) : keys.has attrUserId = true := by
  obtain ⟨earlier, later, -, hstate⟩ := h
  have hcore : ((RegistryState.after {} [some coreReservation]).attributeKeyReservation attrUserId).isSome = true := by
    decide +kernel
  obtain ⟨held, hheld⟩ := Option.isSome_iff_exists.1 hcore
  have hearlier := RegistryState.kept_after _ earlier attrUserId held hheld
  have hcall := RegistryState.kept_call _ (some cedarReservation) attrUserId held hearlier
  have hkept := RegistryState.kept_after _ later attrUserId held hcall
  rw [← RegistryState.after_append, List.singleton_append, ← hstate] at hkept
  rw [← AttributeKeyRegistry.attributeKeyReservation_isSome]
  exact Option.isSome_iff_exists.2 ⟨held, hkept⟩

/-! ## What the builtin collectors write -/

/-- The keys the builtin collectors write by themselves. -/
def builtinKeys : List Str := [attrScopes, attrPermissions, attrRoles, attrUserId, attrClientId, attrDelegationRange]

/-- A collector that was let through writes nothing under a key another package than core reserved, its own keys
apart. -/
theorem builtin_absent {keys : AttributeKeyRegistry} {collector : BuiltinCollector}
    (hchecked : collector.Checked keys) {key : Str} {held : AttributeKeyReservation}
    (hheld : keys.attributeKeyReservation key = some held) (howner : held.owner ≠ coreAttributeKeyOwner)
    (hkey : key ∉ builtinKeys) (context : CollectorContext) : (collector.collect context).get? key = none := by
  by_contra hne
  obtain ⟨value, hget⟩ := Option.ne_none_iff_exists'.1 hne
  cases collector with
  | payloadScope self => exact hkey ((get?_ofList_one hget).1 ▸ by simp [builtinKeys])
  | staticPermission self => exact hkey ((get?_ofList_one hget).1 ▸ by simp [builtinKeys])
  | staticRole self => exact hkey ((get?_ofList_one hget).1 ▸ by simp [builtinKeys])
  | payloadSubjectId =>
    rcases subjectId_get? hget with ⟨rfl, -⟩ | ⟨rfl, -⟩
    · exact hkey (by simp [builtinKeys])
    · exact hkey (by simp [builtinKeys])
  | requestContext self =>
    obtain ⟨mapping, hm, rfl, -⟩ := RequestContextAttributeCollector.collect_typed hget
    have hhas := AttributeKeyRegistry.attributeKeyReservation_isSome keys mapping.«to»
    rw [hheld, hchecked mapping hm] at hhas
    exact absurd hhas (by simp)
  | payloadClaim self =>
    obtain ⟨mapping, hm, rfl, -⟩ := promoteRead_get? hget
    exact howner (hchecked mapping hm held hheld)
  | delegationRange self =>
    have hcollect : (self.collect context).get? key = some value := hget
    unfold DelegationRangeCollector.collect at hcollect
    split at hcollect
    · exact absurd hcollect (by simp)
    · exact hkey ((get?_ofList_one hcollect).1 ▸ by simp [builtinKeys])

/-! ## What an app's collectors write -/

/-- What a collector of an app was let through at the boot. -/
def AppCollector.Checked (keys : AttributeKeyRegistry) : AppCollector → Prop
  | .builtin self => self.Checked keys
  | .requestFacts => True

section Assembled

variable {string : Value → Str} {upper : UInt16 → Str} {keys : AttributeKeyRegistry}

theorem AppModule.factories_checked {module : AppModule} {name : Str} {factory : Value → Except Str AppCollector}
    (h : (name, factory) ∈ module.factories string upper keys) {config : Value} {made : AppCollector}
    (hmade : factory config = .ok made) : made.Checked keys := by
  cases module with
  | builtinCollectors =>
    obtain ⟨⟨own, make⟩, hown, heq⟩ := List.mem_map.1 h
    obtain ⟨rfl, rfl⟩ := Prod.mk.inj heq
    obtain ⟨self, hself, rfl⟩ := map_ok hmade
    exact Builtins.factories_checked hown hself
  | cedarPolicy =>
    obtain ⟨-, rfl⟩ := Prod.mk.inj (List.mem_singleton.1 h)
    obtain rfl := Except.ok.inj hmade
    trivial

/-- Every collector of an app was made by a factory of one of its modules. -/
theorem assembleCollectors_checked {modules : List AppModule} {entries : List (Str × Value)}
    {collectors : List AppCollector}
    (h : assembleCollectors string upper keys modules entries = .ok collectors) :
    ∀ collector ∈ collectors, collector.Checked keys := by
  obtain ⟨registry, hregistry, hcollectors⟩ := bind_eq_ok h
  intro collector hc
  obtain ⟨name, config, factory, hget, hmade⟩ := resolveEntries_mem hcollectors hc
  rcases registerAll_get hregistry hget with hempty | hmem
  · exact absurd hempty (by simp [Registry.get])
  · obtain ⟨module, -, hfactory⟩ := List.mem_flatMap.1 hmem
    exact AppModule.factories_checked hfactory hmade

end Assembled

/-- Nobody else writes a fact of the request. -/
theorem facts_alone {keys : AttributeKeyRegistry} (hkeys : CedarLoaded keys) {collector : AppCollector}
    (hchecked : collector.Checked keys) {key : Str} (hkey : key ∈ cedarAttributeKeys) (context : CollectorContext) :
    (collector.collect context).get? key = none ∨ collector = .requestFacts := by
  cases collector with
  | requestFacts => exact .inr rfl
  | builtin self =>
    obtain ⟨held, hheld, hmine⟩ := hkeys.reserved hkey
    have hown : ∀ key ∈ cedarAttributeKeys, key ∉ builtinKeys := by decide
    have howner : held.owner ≠ coreAttributeKeyOwner := by
      rw [hmine]
      decide
    exact .inl (builtin_absent hchecked hheld howner (hown key hkey) context)

/-- The facts, in the order they are written. -/
theorem facts_entries (context : CollectorContext) : (RequestFactsCollector.collect context).entries =
    [ (attrRequestAction, .str context.action)
      , (attrRequestResourceType, .str context.resource.resourceType)
      , (attrRequestResourceRaw, .str context.resource.raw) ] ++
      (context.resource.resourceId.map fun resourceId => (attrRequestResourceId, Value.str resourceId)).toList := by
  unfold RequestFactsCollector.collect
  cases context.resource.resourceId with
  | none => rfl
  | some resourceId => rfl

/-- Each of them is one string. -/
theorem facts_scalar {context : CollectorContext} {key : Str} {value : Value}
    (h : (RequestFactsCollector.collect context).get? key = some value) : value.isArray = false := by
  have hentry := (OrderedMap.get?_eq_some_iff _ key value).1 h
  rw [facts_entries, List.mem_append] at hentry
  rcases hentry with hentry | hentry
  · simp only [List.mem_cons, Prod.mk.injEq, List.not_mem_nil, or_false] at hentry
    rcases hentry with ⟨-, rfl⟩ | ⟨-, rfl⟩ | ⟨-, rfl⟩ <;> rfl
  · obtain ⟨resourceId, -, heq⟩ := Option.map_eq_some_iff.1 (Option.mem_toList.1 hentry)
    obtain ⟨-, rfl⟩ := Prod.mk.inj heq
    rfl

theorem facts_action (context : CollectorContext) :
    (RequestFactsCollector.collect context).get? attrRequestAction = some (.str context.action) := by
  unfold RequestFactsCollector.collect
  cases context.resource.resourceId with
  | none => rfl
  | some resourceId => rfl

theorem facts_type (context : CollectorContext) :
    (RequestFactsCollector.collect context).get? attrRequestResourceType =
      some (.str context.resource.resourceType) := by
  unfold RequestFactsCollector.collect
  cases context.resource.resourceId with
  | none => rfl
  | some resourceId => rfl

/-- None of them is about a user. -/
theorem facts_userId (context : CollectorContext) :
    (RequestFactsCollector.collect context).get? attrUserId = none := by
  unfold RequestFactsCollector.collect
  cases context.resource.resourceId with
  | none => rfl
  | some resourceId => rfl

/-! ## What a request is named by -/

theorem requiredString_ok {attrs : Attributes} {key role id : Str} (h : requiredString attrs key role = .ok id) :
    attrs.get? key = some (.str id) ∧ id ≠ [] := by
  unfold requiredString at h
  split at h
  · rename_i s hvalue
    split at h
    · exact absurd h (by simp)
    · rename_i hs
      obtain rfl := Except.ok.inj h
      refine ⟨?_, hs⟩
      unfold valueAt at hvalue
      cases hget : attrs.get? key with
      | none =>
        rw [hget] at hvalue
        exact absurd hvalue (by simp)
      | some value =>
        rw [hget, Option.getD_some] at hvalue
        rw [hvalue]
  · exact absurd h (by simp)

/-- The ids a request was built with. -/
theorem uids_of_ok {m : ResolvedMapping} {attrs : Attributes} {request : CedarRequest}
    (h : buildCedarRequest m attrs = .ok request) : ∃ principal action type id,
      requiredString attrs m.principalIdAttribute (js "principal id") = .ok principal ∧
      requiredString attrs m.actionIdAttribute (js "action") = .ok action ∧
      requiredString attrs m.resourceTypeAttribute (js "resource type") = .ok type ∧
      optionalAttrString attrs m.resourceIdAttribute (js "resource id") = .ok id ∧
      request.principal = ⟨m.principalType, principal⟩ ∧ request.action = ⟨m.actionType, action⟩ ∧
        request.resource = ⟨type, id.getD m.resourceIdWhenAbsent⟩ := by
  obtain ⟨uids, _, _, _, _, hbuilt, -, -, hprincipal, haction, hresource, -⟩ := built_of_ok h
  have huids := hbuilt.uids_eq
  unfold requestUids at huids
  obtain ⟨principal, hp, huids⟩ := bind_eq_ok huids
  obtain ⟨action, ha, huids⟩ := bind_eq_ok huids
  obtain ⟨type, ht, huids⟩ := bind_eq_ok huids
  obtain ⟨id, hid, huids⟩ := bind_eq_ok huids
  obtain rfl := Except.ok.inj huids
  exact ⟨principal, action, type, id, hp, ha, ht, hid, hprincipal, haction, hresource⟩

/-- The mapping reads the request off the keys it is reserved under. -/
structure ReadsRequest (m : ResolvedMapping) : Prop where
  principal : m.principalIdAttribute = attrUserId
  action : m.actionIdAttribute = attrRequestAction
  type : m.resourceTypeAttribute = attrRequestResourceType
  id : m.resourceIdAttribute = attrRequestResourceId

/-- A part of the config says nothing of a key. -/
def LeavesOut (config : List (Str × Value)) (part key : Str) : Prop :=
  ∀ props, configSection config part = .ok props → (Value.findProp key props).getD .undefined = .undefined

/-- The config of an entry that names no attribute for an id, and none for the type of a resource. -/
structure DefaultIds (config : List (Str × Value)) : Prop where
  principal : LeavesOut config (js "principal") (js "idAttribute")
  action : LeavesOut config (js "action") (js "idAttribute")
  type : LeavesOut config (js "resource") (js "typeAttribute")
  id : LeavesOut config (js "resource") (js "idAttribute")

theorem LeavesOut.optionalString {config props : List (Str × Value)} {part path key : Str} {name : Option Str}
    (h : LeavesOut config part key) (hpart : configSection config part = .ok props)
    (hname : optionalString props path key = .ok name) : name = none := by
  unfold Cedar.optionalString at hname
  rw [h props hpart] at hname
  exact (Except.ok.inj hname).symm

/-- A mapping that is resolved from such a config reads the request off the reserved keys. -/
theorem DefaultIds.readsRequest {config : List (Str × Value)} {m : ResolvedMapping} (h : DefaultIds config)
    (hm : resolveMapping config = .ok m) : ReadsRequest m := by
  unfold resolveMapping at hm
  obtain ⟨principal, hprincipal, hm⟩ := bind_eq_ok hm
  obtain ⟨action, haction, hm⟩ := bind_eq_ok hm
  obtain ⟨resource, hresource, hm⟩ := bind_eq_ok hm
  obtain ⟨_, -, hm⟩ := bind_eq_ok hm
  obtain ⟨principalId, hprincipalId, hm⟩ := bind_eq_ok hm
  obtain ⟨_, -, hm⟩ := bind_eq_ok hm
  obtain ⟨_, -, hm⟩ := bind_eq_ok hm
  obtain ⟨actionId, hactionId, hm⟩ := bind_eq_ok hm
  obtain ⟨resourceType, hresourceType, hm⟩ := bind_eq_ok hm
  obtain ⟨resourceId, hresourceId, hm⟩ := bind_eq_ok hm
  obtain ⟨_, -, hm⟩ := bind_eq_ok hm
  obtain ⟨_, -, hm⟩ := bind_eq_ok hm
  obtain ⟨_, -, hm⟩ := bind_eq_ok hm
  obtain ⟨_, -, hm⟩ := bind_eq_ok hm
  obtain rfl := h.principal.optionalString hprincipal hprincipalId
  obtain rfl := h.action.optionalString haction hactionId
  obtain rfl := h.type.optionalString hresource hresourceType
  obtain rfl := h.id.optionalString hresource hresourceId
  dsimp only at hm
  split at hm
  · exact absurd hm (by simp [configError])
  · obtain rfl := Except.ok.inj hm
    exact ⟨rfl, rfl, rfl, rfl⟩

/-- The token says that the user is `user`. -/
structure Identified (collectors : List AppCollector) (subject : SubjectAttributes) (user : Str) : Prop where
  nonempty : user ≠ []
  /-- It is the token's subject, or a claim that the config promotes. -/
  given : (.builtin .payloadSubjectId ∈ collectors ∧ subject (js "sub") = .str user) ∨
    ∃ self mapping, .builtin (.payloadClaim self) ∈ collectors ∧ mapping ∈ self.mappings ∧
      mapping.«to» = attrUserId ∧ readClaim subject mapping.«from» = .str user
  /-- Where the app reads the token's subject, a promoted claim does not stand for another one. -/
  subject : .builtin .payloadSubjectId ∈ collectors → ∀ sub, subject (js "sub") = .str sub → sub ≠ [] → sub = user

/-- What a Cedar request is about: the token's user, and the action and the resource of the request that came in. -/
structure AboutRequest (collectors : List AppCollector) (m : ResolvedMapping) (context : CollectorContext)
    (request : CedarRequest) : Prop where
  principal : ∃ user, request.principal = ⟨m.principalType, user⟩ ∧ Identified collectors context.subject user
  action : request.action = ⟨m.actionType, context.action⟩
  resource : request.resource =
    ⟨context.resource.resourceType, context.resource.resourceId.getD m.resourceIdWhenAbsent⟩

section Facts

variable {keys : AttributeKeyRegistry} {collectors : List AppCollector} {context : CollectorContext}
  {attrs : Attributes}

/-- A key of this package holds what `RequestFactsCollector` wrote, where the app has one. -/
theorem fact_held (hkeys : CedarLoaded keys) (hchecked : ∀ collector ∈ collectors, collector.Checked keys)
    (hmerge : merge (appMaps collectors context) = .ok attrs) (hfacts : .requestFacts ∈ collectors) {key : Str}
    (hkey : key ∈ cedarAttributeKeys) : attrs.get? key = (RequestFactsCollector.collect context).get? key := by
  have halone : ∀ map ∈ appMaps collectors context,
      map.get? key = none ∨ map = RequestFactsCollector.collect context := by
    intro map hmap
    obtain ⟨collector, hc, rfl⟩ := List.mem_map.1 hmap
    rcases facts_alone hkeys (hchecked collector hc) hkey context with hnone | rfl
    · exact .inl hnone
    · exact .inr rfl
  have hmine : RequestFactsCollector.collect context ∈ appMaps collectors context := List.mem_map_of_mem hfacts
  cases hvalue : (RequestFactsCollector.collect context).get? key with
  | none =>
    refine merged_absent hmerge fun map hmap => ?_
    rcases halone map hmap with hnone | rfl
    · exact hnone
    · exact hvalue
  | some value =>
    refine merged_alone hmerge (facts_scalar hvalue) ⟨_, hmine, hvalue⟩ fun map hmap w hw => ?_
    rcases halone map hmap with hnone | rfl
    · exact absurd (hnone.symm.trans hw) (by simp)
    · exact Option.some.inj (hw.symm.trans hvalue)

/-- It holds nothing where the app has none. -/
theorem fact_absent (hkeys : CedarLoaded keys) (hchecked : ∀ collector ∈ collectors, collector.Checked keys)
    (hmerge : merge (appMaps collectors context) = .ok attrs) (hfacts : .requestFacts ∉ collectors) {key : Str}
    (hkey : key ∈ cedarAttributeKeys) : attrs.get? key = none := by
  refine merged_absent hmerge fun map hmap => ?_
  obtain ⟨collector, hc, rfl⟩ := List.mem_map.1 hmap
  rcases facts_alone hkeys (hchecked collector hc) hkey context with hnone | rfl
  · exact hnone
  · exact absurd hc hfacts

/-- A collector that writes a single string as the user's id read it from the token. -/
theorem user_of_collected (hkeys : CedarLoaded keys) {collector : AppCollector} (hchecked : collector.Checked keys)
    {user : Str} (hget : (collector.collect context).get? attrUserId = some (.str user)) :
    (collector = .builtin .payloadSubjectId ∧ context.subject (js "sub") = .str user) ∨
      ∃ self mapping, collector = .builtin (.payloadClaim self) ∧ mapping ∈ self.mappings ∧
        mapping.«to» = attrUserId ∧ readClaim context.subject mapping.«from» = .str user := by
  cases collector with
  | requestFacts => exact absurd ((facts_userId context).symm.trans hget) (by simp)
  | builtin self =>
    cases self with
    | payloadSubjectId =>
      rcases subjectId_get? hget with ⟨-, sub, hsub, hvalue⟩ | ⟨hkey, -⟩
      · obtain rfl := Value.str.inj hvalue
        exact .inl ⟨rfl, (nonEmpty?_eq_some.1 hsub).2⟩
      · exact absurd hkey (by decide)
    | payloadClaim self =>
      obtain ⟨mapping, hm, hto, -, hvalue⟩ := promoteRead_get? hget
      exact .inr ⟨self, mapping, rfl, hm, hto, promoted_str hvalue.symm⟩
    | requestContext self =>
      obtain ⟨mapping, hm, hto, -⟩ := RequestContextAttributeCollector.collect_typed hget
      have hhas := hchecked mapping hm
      rw [hto, hkeys.userId] at hhas
      exact absurd hhas (by simp)
    | payloadScope self => exact absurd (get?_ofList_one hget).1 (by decide)
    | staticPermission self => exact absurd (get?_ofList_one hget).1 (by decide)
    | staticRole self => exact absurd (get?_ofList_one hget).1 (by decide)
    | delegationRange self =>
      have hcollect : (self.collect context).get? attrUserId = some (.str user) := hget
      unfold DelegationRangeCollector.collect at hcollect
      split at hcollect
      · exact absurd hcollect (by simp)
      · exact absurd (get?_ofList_one hcollect).1 (by decide)

end Facts

/-- The id of the resource, as the mapping reads it. -/
theorem resourceId_read {context : CollectorContext} {attrs : Attributes} {role : Str} {id : Option Str}
    (hget : attrs.get? attrRequestResourceId = (RequestFactsCollector.collect context).get? attrRequestResourceId)
    (h : optionalAttrString attrs attrRequestResourceId role = .ok id) : id = context.resource.resourceId := by
  have hfact : attrs.get? attrRequestResourceId = context.resource.resourceId.map Value.str := by
    rw [hget]
    unfold RequestFactsCollector.collect
    cases context.resource.resourceId with
    | none => rfl
    | some resourceId => rfl
  unfold optionalAttrString valueAt at h
  rw [hfact] at h
  cases hid : context.resource.resourceId with
  | none =>
    rw [hid] at h
    exact (Except.ok.inj h).symm
  | some resourceId =>
    rw [hid] at h
    exact (Except.ok.inj h).symm

/-- Whatever an engine answers to other requests, a rule over the attributes asks it about such requests alone. -/
structure AsksOnly (toStr : Value → Except Thrown Str) (rule : BoundRule) (attrs : Attributes)
    (About : CedarRequest → Prop) : Prop where
  built : ∀ request, buildCedarRequest rule.mapping attrs = .ok request → About request
  verify : ∀ ask ask', (∀ request, About request → ask request = ask' request) → ∀ reporter,
    rule.verify toStr ask attrs reporter = rule.verify toStr ask' attrs reporter
  decide : ∀ ask ask', (∀ request, About request → ask request = ask' request) → ∀ aborted reporter,
    rule.decide toStr ask aborted attrs reporter = rule.decide toStr ask' aborted attrs reporter
  /-- So it is with the rule as core asks it, of either kind, its report included. -/
  asked : ∀ ask ask', (∀ request, About request → ask request = ask' request) → ∀ isAsync aborted,
    (buildRule toStr rule isAsync ask aborted).verify attrs = (buildRule toStr rule isAsync ask' aborted).verify attrs ∧
      (buildRule toStr rule isAsync ask aborted).decide attrs = (buildRule toStr rule isAsync ask' aborted).decide attrs
  logged : ∀ ask ask', (∀ request, About request → ask request = ask' request) →
    callLog rule ask attrs = callLog rule ask' attrs

section Asked

variable {toStr : Value → Except Thrown Str} {rule : BoundRule} {attrs : Attributes} {About : CedarRequest → Prop}
  (h : ∀ request, buildCedarRequest rule.mapping attrs = .ok request → About request)
  {ask ask' : CedarRequest → Except Thrown Value} (hsame : ∀ request, About request → ask request = ask' request)

include h hsame

theorem verify_same (reporter : Option Reporter) :
    rule.verify toStr ask attrs reporter = rule.verify toStr ask' attrs reporter := by
  unfold BoundRule.verify
  cases hbuild : buildCedarRequest rule.mapping attrs with
  | error e => rfl
  | ok request =>
    dsimp only
    rw [hsame request (h request hbuild)]

theorem decide_same (aborted : Option Thrown) (reporter : Option Reporter) :
    rule.decide toStr ask aborted attrs reporter = rule.decide toStr ask' aborted attrs reporter := by
  unfold BoundRule.decide
  cases hbuild : buildCedarRequest rule.mapping attrs with
  | error e => rfl
  | ok request =>
    dsimp only
    rw [hsame request (h request hbuild)]

theorem callLog_same : callLog rule ask attrs = callLog rule ask' attrs := by
  unfold callLog
  cases hbuild : buildCedarRequest rule.mapping attrs with
  | error e => rfl
  | ok request =>
    dsimp only
    rw [hsame request (h request hbuild)]

end Asked

theorem asksOnly_of_built {toStr : Value → Except Thrown Str} {rule : BoundRule} {attrs : Attributes}
    {About : CedarRequest → Prop} (h : ∀ request, buildCedarRequest rule.mapping attrs = .ok request → About request) :
    AsksOnly toStr rule attrs About where
  built := h
  verify _ _ hsame reporter := verify_same h hsame reporter
  decide _ _ hsame aborted reporter := decide_same h hsame aborted reporter
  asked ask ask' hsame isAsync aborted := by
    unfold buildRule
    dsimp only
    rw [verify_same h hsame, decide_same h hsame]
    exact ⟨rfl, rfl⟩
  logged _ _ hsame := callLog_same h hsame

/-! ## What is sent along -/

/-- The request, with something else sent along. -/
def sentAlong (context : CollectorContext) (sent : Option (List (Str × Value))) : CollectorContext :=
  { context with requestContext := sent }

/-- What a collector of an app writes under the reserved keys is the same whatever is sent along. -/
theorem AppCollector.restrict_sentAlong {keys : AttributeKeyRegistry} {collector : AppCollector}
    (hchecked : collector.Checked keys) (context : CollectorContext) (sent : Option (List (Str × Value))) :
    (collector.collect (sentAlong context sent)).restrict keys.has = (collector.collect context).restrict keys.has := by
  cases collector with
  | requestFacts => rfl
  | builtin self =>
    have hsilent : silent (sentAlong context sent) = silent context := rfl
    have hsent := BuiltinCollector.restrict_silent hchecked (sentAlong context sent)
    rw [hsilent] at hsent
    exact hsent.symm.trans (BuiltinCollector.restrict_silent hchecked context)

/-- So the reserved keys hold the same. -/
theorem held_sentAlong {keys : AttributeKeyRegistry} {collectors : List AppCollector}
    (hchecked : ∀ collector ∈ collectors, collector.Checked keys) {context : CollectorContext}
    {sent : Option (List (Str × Value))} {attrs attrs' : Attributes}
    (hmerge : merge (appMaps collectors context) = .ok attrs)
    (hmerge' : merge (appMaps collectors (sentAlong context sent)) = .ok attrs') {key : Str}
    (hkey : keys.has key = true) : attrs'.get? key = attrs.get? key := by
  refine merged_same ?_ hmerge' hmerge hkey
  unfold appMaps
  rw [List.map_map, List.map_map]
  refine List.map_congr_left fun collector hc => ?_
  exact AppCollector.restrict_sentAlong (hchecked collector hc) context sent

/-- Whom and what a rule over the attributes asks its engine about. -/
structure AskedAbout (toStr : Value → Except Thrown Str) (collectors : List AppCollector) (rule : BoundRule)
    (context : CollectorContext) (attrs : Attributes) : Prop where
  asks : AsksOnly toStr rule attrs (AboutRequest collectors rule.mapping context)
  /-- Whatever else is sent along, it is asked about the same principal, action and resource. -/
  same : ∀ sent attrs', merge (appMaps collectors (sentAlong context sent)) = .ok attrs' → ∀ request request',
    buildCedarRequest rule.mapping attrs = .ok request → buildCedarRequest rule.mapping attrs' = .ok request' →
      request'.principal = request.principal ∧ request'.action = request.action ∧
        request'.resource = request.resource

section App

variable {string : Value → Str} {upper : UInt16 → Str} {keys : AttributeKeyRegistry} (hkeys : CedarLoaded keys)
  {collectors : List AppCollector} (hchecked : ∀ collector ∈ collectors, collector.Checked keys)
  {context : CollectorContext} {attrs : Attributes} (hmerge : merge (appMaps collectors context) = .ok attrs)
  {m : ResolvedMapping} (hreads : ReadsRequest m) {request : CedarRequest}
  (hbuilt : buildCedarRequest m attrs = .ok request)

include hkeys hchecked hmerge hreads hbuilt

theorem aboutRequest_of_built : AboutRequest collectors m context request := by
  obtain ⟨principal, action, type, id, hprincipal, haction, htype, hid, hp, ha, hr⟩ := uids_of_ok hbuilt
  rw [hreads.principal] at hprincipal
  rw [hreads.action] at haction
  rw [hreads.type] at htype
  rw [hreads.id] at hid
  obtain ⟨hprincipal, huser⟩ := requiredString_ok hprincipal
  obtain ⟨haction, -⟩ := requiredString_ok haction
  obtain ⟨htype, -⟩ := requiredString_ok htype
  -- a request that was built has an action, and only `RequestFactsCollector` writes one
  have hfacts : .requestFacts ∈ collectors := by
    by_contra hnot
    have hnone : attrs.get? attrRequestAction = none := fact_absent hkeys hchecked hmerge hnot (by decide)
    exact absurd (hnone.symm.trans haction) (by simp)
  have hheld : ∀ key ∈ cedarAttributeKeys, attrs.get? key = (RequestFactsCollector.collect context).get? key :=
    fun key hkey => fact_held hkeys hchecked hmerge hfacts hkey
  obtain ⟨⟨map, hmap, hwritten⟩, hsame⟩ := merged_scalar hmerge (by rfl) hprincipal
  refine ⟨⟨principal, hp, huser, ?_, ?_⟩, ?_, ?_⟩
  · obtain ⟨collector, hc, rfl⟩ := List.mem_map.1 hmap
    rcases user_of_collected hkeys (hchecked collector hc) hwritten with
      ⟨rfl, hsub⟩ | ⟨self, mapping, rfl, hm, hto, hread⟩
    · exact .inl ⟨hc, hsub⟩
    · exact .inr ⟨self, mapping, hc, hm, hto, hread⟩
  · intro hsubject sub hsub hne
    have hwrites : (PayloadSubjectIdCollector.collect context).get? attrUserId = some (.str sub) :=
      subjectId_user hsub hne
    exact Value.str.inj (hsame _ (List.mem_map_of_mem hsubject) _ hwrites rfl)
  · have hfact : some (Value.str action) = some (.str context.action) :=
      haction.symm.trans ((hheld attrRequestAction (by decide)).trans (facts_action context))
    obtain rfl := Value.str.inj (Option.some.inj hfact)
    exact ha
  · have hfact : some (Value.str type) = some (.str context.resource.resourceType) :=
      htype.symm.trans ((hheld attrRequestResourceType (by decide)).trans (facts_type context))
    obtain rfl := Value.str.inj (Option.some.inj hfact)
    obtain rfl := resourceId_read (hheld attrRequestResourceId (by decide)) hid
    exact hr

/-- The user's id is reserved, so the principal does not depend on what is sent along. -/
theorem principal_sentAlong {sent : Option (List (Str × Value))} {attrs' : Attributes}
    (hmerge' : merge (appMaps collectors (sentAlong context sent)) = .ok attrs') {request' : CedarRequest}
    (hbuilt' : buildCedarRequest m attrs' = .ok request') : request'.principal = request.principal := by
  obtain ⟨principal, _, _, _, hprincipal, -, -, -, hp, -⟩ := uids_of_ok hbuilt
  obtain ⟨principal', _, _, _, hprincipal', -, -, -, hp', -⟩ := uids_of_ok hbuilt'
  rw [hreads.principal] at hprincipal hprincipal'
  have hread := (requiredString_ok hprincipal).1
  have hread' := (requiredString_ok hprincipal').1
  rw [held_sentAlong hchecked hmerge hmerge' hkeys.userId, hread] at hread'
  obtain rfl := Value.str.inj (Option.some.inj hread')
  exact hp'.trans hp.symm

end App

/-- Cedar decides on the request that came in, for the user the token names: no collector an app assembles from the
two packages, and nothing a caller sends along, has a rule ask about another principal, action or resource. -/
theorem cedar_asked_about_request (string : Value → Str) (upper : UInt16 → Str) (keys : AttributeKeyRegistry)
    (hkeys : CedarLoaded keys) (modules : List AppModule) (entries : List (Str × Value))
    (collectors : List AppCollector)
    (hcollectors : assembleCollectors string upper keys modules entries = .ok collectors) (context : CollectorContext)
    (attrs : Attributes) (hmerge : merge (appMaps collectors context) = .ok attrs) (toStr : Value → Except Thrown Str)
    (rule : BoundRule) (config : List (Str × Value)) (hmapping : resolveMapping config = .ok rule.mapping)
    (hdefault : DefaultIds config) : AskedAbout toStr collectors rule context attrs := by
  have hchecked := assembleCollectors_checked hcollectors
  have hreads := hdefault.readsRequest hmapping
  have habout : ∀ request, buildCedarRequest rule.mapping attrs = .ok request →
      AboutRequest collectors rule.mapping context request :=
    fun request hbuilt => aboutRequest_of_built hkeys hchecked hmerge hreads hbuilt
  refine ⟨asksOnly_of_built habout, ?_⟩
  intro sent attrs' hmerge' request request' hbuilt hbuilt'
  have hsent := aboutRequest_of_built hkeys hchecked hmerge' hreads hbuilt'
  have hown := habout request hbuilt
  exact ⟨principal_sentAlong hkeys hchecked hmerge hreads hbuilt hmerge' hbuilt',
    hsent.action.trans hown.action.symm, hsent.resource.trans hown.resource.symm⟩

/-! ## An app that asks Cedar -/

/-- The registry once core and the two packages are loaded. -/
def appKeys : AttributeKeyRegistry where
  reservations :=
    (RegistryState.after {} [some coreReservation, some builtinsReservation, some cedarReservation]).reservations
  reservedKeys :=
    (RegistryState.after {} [some coreReservation, some builtinsReservation, some cedarReservation]).reservedKeys
  inStep key := by
    rw [(RegistryState.consistent_empty.after _).inStep, ← OrderedMap.get?_isSome_iff]
    rfl

theorem appKeys_loaded : CedarLoaded appKeys := ⟨[some builtinsReservation], [], rfl, rfl⟩

/-- The attribute collectors of its config: the user, the facts of the request, and the groups a caller sends. -/
def appEntries : List (Str × Value) :=
  [ (js "PayloadSubjectIdCollector", .obj 0 []), (js "RequestContextAttributeCollector", callerGroups)
    , (js "RequestFactsCollector", .obj 0 []) ]

/-- Alice reads an order, and sends along that she does something else. -/
def aliceReads : CollectorContext where
  subject name := if name = js "sub" then .str (js "alice") else .undefined
  resource := { raw := js "order:17", resourceType := js "order", resourceId := some (js "17") }
  action := js "read"
  requestContext := some [(js "groups", .arr 0 [.str (js "a")]), (js "requestAction", .str (js "delete"))]

/-- A config of an entry that names no attributes reads them off the reserved keys. -/
theorem defaultIds_nil : DefaultIds [] := by
  have hout : ∀ part key, LeavesOut [] part key := by
    intro part key props hprops
    obtain rfl := Except.ok.inj hprops
    rfl
  exact ⟨hout _ _, hout _ _, hout _ _, hout _ _⟩

theorem cedar_asked_about_request_alice : ∃ collectors attrs attrs' request request',
    assembleCollectors (fun _ => []) (fun c => [c]) appKeys [.cedarPolicy, .builtinCollectors] appEntries =
      .ok collectors ∧ merge (appMaps collectors aliceReads) = .ok attrs ∧
    merge (appMaps collectors (sentAlong aliceReads none)) = .ok attrs' ∧
    buildCedarRequest idsOnly attrs = .ok request ∧ buildCedarRequest idsOnly attrs' = .ok request' ∧
    AboutRequest collectors idsOnly aliceReads request ∧ request'.principal = request.principal := by
  obtain ⟨collectors, attrs, attrs', request, request', hcollectors, hmerge, hmerge', hbuilt, hbuilt'⟩ :
      ∃ collectors attrs attrs' request request',
      assembleCollectors (fun _ => []) (fun c => [c]) appKeys [.cedarPolicy, .builtinCollectors] appEntries =
        .ok collectors ∧ merge (appMaps collectors aliceReads) = .ok attrs ∧
      merge (appMaps collectors (sentAlong aliceReads none)) = .ok attrs' ∧
      buildCedarRequest idsOnly attrs = .ok request ∧ buildCedarRequest idsOnly attrs' = .ok request' :=
    ⟨_, _, _, _, _, rfl, rfl, rfl, rfl, rfl⟩
  have hasked := cedar_asked_about_request (fun _ => []) (fun c => [c]) appKeys appKeys_loaded _ _ collectors hcollectors
    aliceReads attrs hmerge (fun _ => .ok []) abstaining [] rfl defaultIds_nil
  exact ⟨collectors, attrs, attrs', request, request', hcollectors, hmerge, hmerge', hbuilt, hbuilt',
    hasked.asks.built request hbuilt, (hasked.same none attrs' hmerge' request request' hbuilt hbuilt').1⟩

end PolicyVerifier.Cedar

import Mathlib.Data.Finset.Card
import PolicyVerifier.Cedar.CedarJson
import PolicyVerifier.Core.Types

/-!
# From the merged attributes to one Cedar request

The mapping of a collector's config, and the request built from it as a pure function of the
attributes. A role, principal or resource, is a reference to an entity, and what its mapping says of
that entity is a contribution to it; when two roles name one entity their contributions are
reconciled under `sharedEntity`.
-/

namespace PolicyVerifier.Cedar

open Js PolicyVerifier.Core

/-- `attrs.get(key)`. -/
def valueAt (attrs : Attributes) (key : Str) : Value := (attrs.get? key).getD .undefined

/-- `describe`: what a value is, for a message. -/
def describe : Value → Str
  | .null => js "null"
  | .arr _ _ => js "array"
  | v => v.typeOf

/-! ## The configuration -/

/-- One synthesized entity attribute: a value copied from an attribute, or an entity reference built
from one. -/
inductive AttributeMapping where
  | copy (attrKey : Str)
  | reference (attrKey entityType : Str)

/-- One synthesized entity: a missing part reads as an empty one. -/
structure EntityMappingConfig where
  attributes : OrderedMap Str AttributeMapping := ∅
  parents : OrderedMap Str Str := ∅

/-- How the request's entity is described when the principal and the resource are one entity. -/
inductive SharedEntity where
  | strict
  | merge
deriving DecidableEq

/-- The mapping a collector resolves once at boot. A principal is never an action. -/
structure ResolvedMapping where
  principalType : Str
  principalIdAttribute : Str
  principal : EntityMappingConfig
  actionType : Str
  actionIdAttribute : Str
  resourceTypeAttribute : Str
  resourceIdAttribute : Str
  resourceIdWhenAbsent : Str
  resource : EntityMappingConfig
  context : OrderedMap Str Str
  sharedEntity : SharedEntity
  types_differ : principalType ≠ actionType

section Config

/-- What a config the mapping refuses is refused with. -/
def configError {α : Type} (message : Str) : Except Str α :=
  .error (js "CedarPolicyRuleCollector: " ++ message)

/-- `section`: a part of the config, empty when it is absent. -/
def configSection (config : List (Str × Value)) (key : Str) : Except Str (List (Str × Value)) :=
  match (Value.findProp key config).getD .undefined with
  | .undefined => .ok []
  | .obj _ props => .ok props
  | v => configError (key ++ js " must be a config object, got " ++ describe v)

/-- `optionalString`: `key` is the last part of `path`. -/
def optionalString (part : List (Str × Value)) (path key : Str) : Except Str (Option Str) :=
  match (Value.findProp key part).getD .undefined with
  | .undefined => .ok none
  | .str s =>
    if s = [] then configError (path ++ js " must be a non-empty string, got " ++ describe (.str s))
    else .ok (some s)
  | v => configError (path ++ js " must be a non-empty string, got " ++ describe v)

/-- One entry of `stringRecord`. -/
def stringEntry (path : Str) (out : OrderedMap Str Str) (entry : Str × Value) :
    Except Str (OrderedMap Str Str) :=
  match entry.2 with
  | .str s =>
    if s = [] then
      configError (path ++ js "." ++ entry.1 ++ js " must be a non-empty attribute key, got " ++
        describe (.str s))
    else .ok (out.set entry.1 s)
  | v =>
    configError (path ++ js "." ++ entry.1 ++ js " must be a non-empty attribute key, got " ++
      describe v)

/-- `stringRecord`. -/
def stringRecord (value : Value) (path : Str) : Except Str (OrderedMap Str Str) :=
  match value with
  | .undefined => .ok ∅
  | .obj _ props => props.foldlM (stringEntry path) ∅
  | v => configError (path ++ js " must be a config object, got " ++ describe v)

/-- An entry of `attributes`: an attribute key, or the object form. -/
def attributeMapping? : Value → Option AttributeMapping
  | .str s => if s = [] then none else some (.copy s)
  | .obj _ props =>
    match Value.findProp (js "attribute") props, Value.findProp (js "entityType") props with
    | some (.str attrKey), some (.str entityType) => some (.reference attrKey entityType)
    | _, _ => none
  | _ => none

/-- One entry of the `attributes` of an entity. -/
def attributeEntry (path : Str) (out : OrderedMap Str AttributeMapping) (entry : Str × Value) :
    Except Str (OrderedMap Str AttributeMapping) :=
  match attributeMapping? entry.2 with
  | some mapping => .ok (out.set entry.1 mapping)
  | none =>
    configError (path ++ js ".attributes." ++ entry.1 ++
      js " must be an attribute key or \x7b attribute, entityType \x7d, got " ++ describe entry.2)

/-- `entityMapping`. -/
def entityMapping (part : List (Str × Value)) (path : Str) : Except Str EntityMappingConfig := do
  let attributes ←
    match (Value.findProp (js "attributes") part).getD .undefined with
    | .undefined => pure ∅
    | .obj _ props => props.foldlM (attributeEntry path) ∅
    | v => configError (path ++ js ".attributes must be a config object, got " ++ describe v)
  let parents ← stringRecord ((Value.findProp (js "parents") part).getD .undefined) (path ++ js ".parents")
  pure { attributes, parents }

/-- `sharedEntity`. -/
def sharedEntity (value : Value) : Except Str SharedEntity :=
  let refused (got : Str) :=
    configError (js "sharedEntity must be one of strict, merge, got " ++ got)
  match value with
  | .undefined => .ok .strict
  | .str s =>
    if s = js "strict" then .ok .strict
    else if s = js "merge" then .ok .merge
    else refused (Json.quote s)
  | v => refused (describe v)

/-- The types of an entry that names none are two. -/
theorem default_types_differ : js "User" ≠ js "Action" := by decide

/-- `resolveMapping`: validates the mapping section of a config entry and resolves defaults. -/
def resolveMapping (config : List (Str × Value)) : Except Str ResolvedMapping := do
  let principal ← configSection config (js "principal")
  let action ← configSection config (js "action")
  let resource ← configSection config (js "resource")
  let principalType ← optionalString principal (js "principal.type") (js "type")
  let principalIdAttribute ← optionalString principal (js "principal.idAttribute") (js "idAttribute")
  let principalMapping ← entityMapping principal (js "principal")
  let actionType ← optionalString action (js "action.type") (js "type")
  let actionIdAttribute ← optionalString action (js "action.idAttribute") (js "idAttribute")
  let resourceTypeAttribute ←
    optionalString resource (js "resource.typeAttribute") (js "typeAttribute")
  let resourceIdAttribute ← optionalString resource (js "resource.idAttribute") (js "idAttribute")
  let resourceIdWhenAbsent ←
    optionalString resource (js "resource.idWhenAbsent") (js "idWhenAbsent")
  let resourceMapping ← entityMapping resource (js "resource")
  let context ← stringRecord ((Value.findProp (js "context") config).getD .undefined) (js "context")
  let shared ← sharedEntity ((Value.findProp (js "sharedEntity") config).getD .undefined)
  let principalType := principalType.getD (js "User")
  let actionType := actionType.getD (js "Action")
  if h : principalType = actionType then
    configError (js "principal.type and action.type must differ, both are " ++
      Json.quote principalType)
  else
    pure
      { principalType
        principalIdAttribute := principalIdAttribute.getD (js "userId")
        principal := principalMapping
        actionType
        actionIdAttribute := actionIdAttribute.getD (js "requestAction")
        resourceTypeAttribute := resourceTypeAttribute.getD (js "requestResourceType")
        resourceIdAttribute := resourceIdAttribute.getD (js "requestResourceId")
        resourceIdWhenAbsent := resourceIdWhenAbsent.getD []
        resource := resourceMapping
        context
        sharedEntity := shared
        types_differ := h }

end Config

/-! ## What the attributes cannot supply -/

/-- What a later description does that the one held does not allow. `what` names the attribute or
the parent type. -/
structure Difference where
  adds : Bool
  what : Str
deriving DecidableEq

/-- What a `CedarInputError` is raised for. -/
inductive CedarInputError where
  | required (role key got : Str)
  | notString (role key got : Str)
  | parents (key got : Str)
  | shared (roles : List Str) (described : Bool) (offered entityType : Str) (found : Difference)
  | cycle
deriving DecidableEq

/-- `refusal`: why two roles that name one entity cannot be reconciled. -/
def refusal (roles : List Str) (described : Bool) (offered entityType : Str) (found : Difference) : Str :=
  let first := roles.headD (js "undefined")
  let shared := js "the " ++ join (js " and the ") roles ++ js " and the " ++ offered ++ js " are one " ++
    entityType ++ js " entity"
  if !described then
    js "the " ++ offered ++ js " is the request's " ++ join (js " and ") roles ++
      js " entity, which no mapping describes, and the " ++ offered ++
      js " mapping would describe it (" ++ found.what ++ js ")"
  else if !found.adds then
    shared ++ js ", and their mappings disagree on it (" ++ found.what ++ js ")"
  else
    shared ++ js ", and the " ++ offered ++ js " mapping would say of it what the " ++ first ++
      js " mapping does not (" ++ found.what ++
      js ") — under sharedEntity = \"strict\" a later role may repeat, not add; set sharedEntity = \"merge\" only if the " ++
      offered ++ js " mapping's sources are as trusted as the " ++ first ++ js "'s"

/-- What the error says. -/
def CedarInputError.message : CedarInputError → Str
  | required role key got =>
    role ++ js " attribute \"" ++ key ++ js "\" must be a non-empty string, got " ++ got
  | notString role key got =>
    role ++ js " attribute \"" ++ key ++ js "\" must be a string, got " ++ got
  | parents key got =>
    js "parents attribute \"" ++ key ++ js "\" must be a string or string[], got " ++ got
  | shared roles described offered entityType found =>
    refusal roles described offered entityType found
  | cycle =>
    js "the request's entities form a membership cycle — an entity would be its own ancestor"

/-- Whether the request was refused because two roles name one entity. -/
def CedarInputError.isShared : CedarInputError → Bool
  | shared _ _ _ _ _ => true
  | _ => false

/-- `requiredString`. -/
def requiredString (attrs : Attributes) (key role : Str) : Except CedarInputError Str :=
  match valueAt attrs key with
  | .str s => if s = [] then .error (.required role key (describe (.str s))) else .ok s
  | v => .error (.required role key (describe v))

/-- `optionalAttrString`. -/
def optionalAttrString (attrs : Attributes) (key role : Str) : Except CedarInputError (Option Str) :=
  match valueAt attrs key with
  | .undefined => .ok none
  | .str s => .ok (some s)
  | v => .error (.notString role key (describe v))

/-! ## What a mapping says of an entity -/

mutual

/-- `toCedarValue`: nothing for what Cedar cannot hold, objects included. -/
def toCedarValue : Value → Option CedarValue
  | .str s => some (.str s)
  | .bool b => some (.bool b)
  | .num n => if h : n.isSafeInteger = true then some (.num ⟨n, h⟩) else none
  | .arr _ items => (toCedarValues items).map .arr
  | _ => none

/-- The items of an array: all of them, or nothing. -/
def toCedarValues : List Value → Option (List CedarValue)
  | [] => some []
  | v :: vs =>
    match toCedarValue v with
    | some c => (toCedarValues vs).map (c :: ·)
    | none => none

end

/-- The value one entry of a mapping's `attributes` gives, if it gives one. -/
def mappedValue (attrs : Attributes) : AttributeMapping → Option CedarValue
  | .copy key => toCedarValue (valueAt attrs key)
  | .reference key entityType =>
    match valueAt attrs key with
    | .str raw => if raw = [] then none else some (.entity ⟨entityType, raw⟩)
    | _ => none

/-- `defineOwn`, for a value that is there. -/
def defineOwn (record : OrderedMap Str CedarValue) (name : Str) :
    Option CedarValue → OrderedMap Str CedarValue
  | some value => record.set name value
  | none => record

/-- `buildEntityAttrs`. -/
def buildEntityAttrs (mappings : OrderedMap Str AttributeMapping) (attrs : Attributes) :
    OrderedMap Str CedarValue :=
  mappings.entries.foldl (fun out e => defineOwn out e.1 (mappedValue attrs e.2)) ∅

/-- The ids under one parents attribute: none when it is absent. -/
def parentIds (attrs : Attributes) (attrKey : Str) : Except CedarInputError (List Str) :=
  match valueAt attrs attrKey with
  | .undefined => .ok []
  | .str s => .ok [s]
  | .arr ref items =>
    match items.mapM Value.str? with
    | some ids => .ok ids
    | none => .error (.parents attrKey (describe (.arr ref items)))
  | raw => .error (.parents attrKey (describe raw))

/-- One declared parent entity type, with its parents. -/
def addParentType (attrs : Attributes) (byType : OrderedMap Str (List CedarEntityUid))
    (entry : Str × Str) : Except CedarInputError (OrderedMap Str (List CedarEntityUid)) := do
  let ids ← parentIds attrs entry.2
  pure (byType.set entry.1 (ids.map fun id => ⟨entry.1, id⟩))

/-- `buildParents`: each declared parent entity type, with the parents found for it. -/
def buildParents (mappings : OrderedMap Str Str) (attrs : Attributes) :
    Except CedarInputError (OrderedMap Str (List CedarEntityUid)) :=
  mappings.entries.foldlM (addParentType attrs) ∅

/-- `buildContext`. -/
def buildContext (mappings : OrderedMap Str Str) (attrs : Attributes) : CedarContext :=
  mappings.entries.foldl
    (fun context e => defineOwn context e.1 (toCedarValue (valueAt attrs e.2))) ∅

/-- What one role's mapping says of the entity it names: the values it found, and every name and
parent type it declares. -/
structure Contribution where
  role : Str
  uid : CedarEntityUid
  attrs : OrderedMap Str CedarValue
  names : List Str
  parents : OrderedMap Str (List CedarEntityUid)
  described : Bool

/-- `contribution`. -/
def contribution (role : Str) (uid : CedarEntityUid) (config : EntityMappingConfig)
    (attrs : Attributes) : Except CedarInputError Contribution := do
  let parents ← buildParents config.parents attrs
  pure
    { role, uid, parents
      attrs := buildEntityAttrs config.attributes attrs
      names := config.attributes.keys
      described := true }

/-! ## One entry per entity -/

/-- What the roles seen so far say of one entity. -/
structure Held where
  entity : CedarEntity
  roles : List Str
  described : Bool
  names : Finset Str := ∅
  parents : OrderedMap Str (Finset Str) := ∅

/-- One parent: pushed unless its key was seen. -/
def addParent (seen : Finset Str × List CedarEntityUid) (parent : CedarEntityUid) :
    Finset Str × List CedarEntityUid :=
  if uidKey parent ∈ seen.1 then seen else (insert (uidKey parent) seen.1, seen.2 ++ [parent])

/-- The parents found for one declared type, each membership once. -/
def absorbParents (held : Held) (entry : Str × List CedarEntityUid) : Held :=
  let seen := entry.2.foldl addParent
    ((held.parents.get? entry.1).getD ∅, held.entity.parents)
  { held with
    entity := { held.entity with parents := seen.2 }
    parents := held.parents.set entry.1 seen.1 }

/-- An attribute of a later role: written when the entity has none of that name. -/
def absorbAttr (attrs : OrderedMap Str CedarValue) (entry : Str × CedarValue) :
    OrderedMap Str CedarValue :=
  if attrs.has entry.1 then attrs else attrs.set entry.1 entry.2

/-- `absorb`: adds what a contribution says that the description does not hold yet. -/
def absorb (held : Held) (offered : Contribution) : Held :=
  offered.parents.entries.foldl absorbParents
    { held with
      entity := { held.entity with attrs := offered.attrs.entries.foldl absorbAttr held.entity.attrs }
      names := held.names ∪ offered.names.toFinset }

/-- `sameKeys`. -/
def sameKeys (a b : Finset Str) : Bool := a.card == b.card && decide (a ⊆ b)

/-- The difference on an attribute. -/
def attributeDifference (adds : Bool) (name : Str) : Difference :=
  ⟨adds, js "attribute \"" ++ name ++ js "\""⟩

/-- The difference on a parent type. -/
def parentsDifference (adds : Bool) (entityType : Str) : Difference :=
  ⟨adds, js "parents of type \"" ++ entityType ++ js "\""⟩

/-- `mergeConflict`: what both declare must agree, a value against an omission included. -/
def mergeConflict (held : Held) (offered : Contribution) : Option Difference :=
  let name := offered.names.find? fun name =>
    decide (name ∈ held.names) &&
      !sameCedarValue (held.entity.attrs.get? name) (offered.attrs.get? name)
  let parents := offered.parents.entries.find? fun e =>
    match held.parents.get? e.1 with
    | some mine => !sameKeys mine (e.2.map uidKey).toFinset
    | none => false
  (name.map (attributeDifference false)).or (parents.map fun e => parentsDifference false e.1)

/-- `strictDifference`: a later description may repeat the one held but add nothing. -/
def strictDifference (held : Held) (offered : Contribution) : Option Difference :=
  let name := offered.names.find? fun name =>
    decide (name ∉ held.names) && offered.attrs.has name
  let parents := offered.parents.entries.find? fun e =>
    !held.parents.has e.1 && decide (0 < e.2.length)
  (mergeConflict held offered).or
    ((name.map (attributeDifference true)).or (parents.map fun e => parentsDifference true e.1))

/-- One role of the request. An entity no mapping describes takes no description from anyone, under
either setting. -/
def reconcile (sharing : SharedEntity) (held : OrderedMap Str Held) (offered : Contribution) :
    Except CedarInputError (OrderedMap Str Held) :=
  let key := uidKey offered.uid
  match held.get? key with
  | none =>
    let fresh : Held :=
      { entity := { uid := offered.uid }, roles := [offered.role], described := offered.described }
    .ok (held.set key (absorb fresh offered))
  | some record =>
    let found :=
      if sharing = .strict ∨ record.described = false then strictDifference record offered
      else mergeConflict record offered
    match found with
    | some difference =>
      .error (.shared record.roles record.described offered.role offered.uid.type difference)
    | none =>
      let joined : Held :=
        { record with
          roles := record.roles ++ [offered.role]
          described := record.described || offered.described }
      .ok (held.set key (absorb joined offered))

/-! ## Membership cycles -/

/-- How far a visit has come with an entity. -/
inductive Visit where
  | opened
  | done
deriving DecidableEq

/-- `visit`: depth first over the parents that are entries of the request. Each nested visit opens
one more entity, so as many units of fuel as there are entities are enough. -/
def visit (byKey : OrderedMap Str CedarEntity) :
    Nat → OrderedMap Str Visit → Str → CedarEntity → Except CedarInputError (OrderedMap Str Visit)
  | 0, _, _, _ => .error .cycle
  | fuel + 1, state, key, entity =>
    match state.get? key with
    | some .done => .ok state
    | some .opened => .error .cycle
    | none => do
      let state ← entity.parents.foldlM
        (fun state parent =>
          match byKey.get? (uidKey parent) with
          | some next => visit byKey fuel state (uidKey parent) next
          | none => .ok state)
        (state.set key .opened)
      pure (state.set key .done)

/-- `refuseCycles`: refuses entities that would be their own ancestors. -/
def refuseCycles (entities : List CedarEntity) : Except CedarInputError Unit := do
  let byKey := OrderedMap.ofList (entities.map fun entity => (uidKey entity.uid, entity))
  let _ ← byKey.entries.foldlM
    (fun state e => visit byKey (byKey.entries.length + 1) state e.1 e.2) ∅
  pure ()

/-- `requestEntities`: one entry per uid, contributions in authority order. -/
def requestEntities (sharing : SharedEntity) (contributions : List Contribution) :
    Except CedarInputError (List CedarEntity) := do
  let held ← contributions.foldlM (reconcile sharing) ∅
  let entities := (held.entries.filter fun e => e.2.described).map fun e => e.2.entity
  refuseCycles entities
  pure entities

/-! ## The request -/

/-- One authorization request in Cedar's JSON form, entities inline. -/
structure CedarRequest where
  principal : CedarEntityUid
  action : CedarEntityUid
  resource : CedarEntityUid
  context : CedarContext
  entities : List CedarEntity

/-- The three entities a request names. -/
structure RequestUids where
  principal : CedarEntityUid
  action : CedarEntityUid
  resource : CedarEntityUid

/-- The ids a request is about, read off the attributes. -/
def requestUids (mapping : ResolvedMapping) (attrs : Attributes) :
    Except CedarInputError RequestUids := do
  let principalId ← requiredString attrs mapping.principalIdAttribute (js "principal id")
  let actionId ← requiredString attrs mapping.actionIdAttribute (js "action")
  let resourceType ← requiredString attrs mapping.resourceTypeAttribute (js "resource type")
  let resourceId ← optionalAttrString attrs mapping.resourceIdAttribute (js "resource id")
  pure
    { principal := ⟨mapping.principalType, principalId⟩
      action := ⟨mapping.actionType, actionId⟩
      resource := ⟨resourceType, resourceId.getD mapping.resourceIdWhenAbsent⟩ }

/-- `buildCedarRequest`. The action takes part so that no other role can describe it, and has no
entry of its own. -/
def buildCedarRequest (mapping : ResolvedMapping) (attrs : Attributes) :
    Except CedarInputError CedarRequest := do
  let uids ← requestUids mapping attrs
  let principal ← contribution (js "principal") uids.principal mapping.principal attrs
  let action ← contribution (js "action") uids.action {} attrs
  let resource ← contribution (js "resource") uids.resource mapping.resource attrs
  let entities ←
    requestEntities mapping.sharedEntity [principal, { action with described := false }, resource]
  pure
    { principal := uids.principal
      action := uids.action
      resource := uids.resource
      context := buildContext mapping.context attrs
      entities }

end PolicyVerifier.Cedar

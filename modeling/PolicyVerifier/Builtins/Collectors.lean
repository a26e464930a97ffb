import PolicyVerifier.Builtins.AttributeMapping
import PolicyVerifier.Builtins.ResourceActionRules
import PolicyVerifier.Core.KeyReservation
import PolicyVerifier.Core.Registry

/-!
# The builtin collectors

The attribute collectors that read the token or the configuration, the module that registers every builtin
collector, and a deployment assembled from it by name. A claim of the subject is its own property: a name it
does not carry reads `undefined`, and no claim it carries does.
-/

namespace PolicyVerifier.Builtins

open Js PolicyVerifier.Core

/-! ## Scopes -/

/-- Reads a scope claim as a list. -/
def scopesFrom (value : Value) : List Str :=
  match value with
  | .str s => (s.splitOn 0x20).filter (· ≠ [])
  | .arr _ items =>
    match items.mapM Value.str? with
    | some scopes => scopes.filter (· ≠ [])
    | none => []
  | _ => []

structure PayloadScopeCollector where
  claim : Str

namespace PayloadScopeCollector

def new (config : Value) : Except Str PayloadScopeCollector :=
  (resolveClaimName (js "PayloadScopeCollector") (config.field (js "claim")) defaultScopeClaim).map (⟨·⟩)

def collect (self : PayloadScopeCollector) (context : CollectorContext) : Attributes :=
  OrderedMap.ofList [(attrScopes, Value.strings (scopesFrom (context.subject self.claim)))]

end PayloadScopeCollector

/-! ## Identities -/

/-- The one client the present claims agree on, or none when they name none or disagree. -/
def clientOf (claims : List Value) : Option Str :=
  let present := claims.filter (· ≠ .undefined)
  match present.head?.bind nonEmpty? with
  | none => none
  | some first => if present.all (· = .str first) then some first else none

/-- `PayloadSubjectIdCollector.collect`. -/
def PayloadSubjectIdCollector.collect (context : CollectorContext) : Attributes :=
  let attrs : Attributes :=
    match nonEmpty? (context.subject (js "sub")) with
    | some sub => OrderedMap.set ∅ attrUserId (.str sub)
    | none => ∅
  match clientOf [context.subject (js "client_id"), context.subject (js "azp")] with
  | some clientId => attrs.set attrClientId (.str clientId)
  | none => attrs

/-! ## The configuration's own lists -/

/-- What a constant list must be, or how it is refused. -/
def constantList (collector field : Str) (config : Value) : Except Str (List Value) :=
  match config.field field with
  | .arr _ items => .ok items
  | .null => .error (refused (js "null"))
  | value => .error (refused value.typeOf)
where
  /-- What a list that is no array is refused with. -/
  refused (got : Str) : Str := collector ++ js ": " ++ field ++ js " must be an array (got " ++ got ++ js ")"

structure StaticPermissionCollector where
  permissions : List Value

namespace StaticPermissionCollector

def new (config : Value) : Except Str StaticPermissionCollector :=
  (constantList (js "StaticPermissionCollector") (js "permissions") config).map (⟨·⟩)

def collect (self : StaticPermissionCollector) (_context : CollectorContext) : Attributes :=
  OrderedMap.ofList [(attrPermissions, Value.list self.permissions)]

end StaticPermissionCollector

/-- Copies one configured role: the object, and its `permissions` array. A malformed one keeps its shape. -/
def copyRole (role : Value) : Value :=
  match role with
  | .arr _ items => Value.list items
  | .obj _ props =>
    .obj 0 (props.map fun prop => (prop.1,
      if prop.1 = js "permissions" then
        match prop.2 with
        | .arr _ items => Value.list items
        | value => value
      else prop.2))
  | role => role

structure StaticRoleCollector where
  roles : List Value

namespace StaticRoleCollector

def new (config : Value) : Except Str StaticRoleCollector :=
  (constantList (js "StaticRoleCollector") (js "roles") config).map fun roles => ⟨roles.map copyRole⟩

def collect (self : StaticRoleCollector) (_context : CollectorContext) : Attributes :=
  OrderedMap.ofList [(attrRoles, Value.list self.roles)]

end StaticRoleCollector

/-! ## Promoted claims -/

/-- Promotes the declared fields as they are read. -/
def promoteRead (read : Str → Value) (mappings : List ResolvedAttributeMapping) : Attributes :=
  mappings.foldl (fun attrs mapping =>
    let raw := read mapping.«from»
    if matchesType raw mapping.type then attrs.set mapping.«to» (promoted raw) else attrs) ∅

/-- `readPath` of the subject: the exact claim when it carries one, else a dot path. -/
def readClaim (subject : SubjectAttributes) (path : Str) : Value :=
  match subject path with
  | .undefined =>
    match path.splitOn 0x2E with
    | first :: rest => walk (subject first) rest
    | [] => .undefined
  | value => value

structure PayloadClaimAttributeCollector where
  mappings : List ResolvedAttributeMapping

namespace PayloadClaimAttributeCollector

/-- Why a mapping onto another package's key is refused, naming that package. -/
def refusal (upper : UInt16 → Str) (registry : AttributeKeyRegistry) (index : Nat)
    (reservation : AttributeKeyReservation) : Str :=
  js "PayloadClaimAttributeCollector: attributes[" ++ decimal index ++ js "] maps onto the reserved attribute \"" ++
    reservation.key ++ js "\", which belongs to " ++ reservation.owner ++
    (match reservation.reason with | none => [] | some reason => js " — " ++ reason) ++
    js ". That package writes the key with a collector of its own, so a verified claim landing on it would be a second writer with a different meaning. Promote the claim under a key of your own (for example \"" ++
    registry.suggestUnreservedAttributeKey upper reservation.key ++ js "\")."

/-- Core's own keys are allowed, those of other packages are not. -/
def policy (upper : UInt16 → Str) (registry : AttributeKeyRegistry) : ReservedKeyPolicy := fun index reservation =>
  if reservation.owner = coreAttributeKeyOwner then none else some (refusal upper registry index reservation)

def new (string : Value → Str) (upper : UInt16 → Str) (registry : AttributeKeyRegistry) (config : Value) :
    Except Str PayloadClaimAttributeCollector :=
  (parseAttributeMappings string registry (js "PayloadClaimAttributeCollector") (policy upper registry) config).map
    (⟨·⟩)

def collect (self : PayloadClaimAttributeCollector) (context : CollectorContext) : Attributes :=
  promoteRead (readClaim context.subject) self.mappings

end PayloadClaimAttributeCollector

/-! ## The module -/

/-- `BUILTINS_ATTRIBUTE_KEY_OWNER`. -/
def builtinsAttributeKeyOwner : Str := js "@o3co/auth.policy-verifier.builtins"

/-- The call this package makes itself when its keys' module is loaded. -/
def builtinsReservation : AttributeKeyReservationRequest where
  owner := .str builtinsAttributeKeyOwner
  keys := .iterable [.str attrDelegationRange] none
  reason := some (js "a delegated token's range, written by DelegationRangeCollector from the authenticated subject and read by WithinDelegationRange")

/-- An attribute collector of this package. -/
inductive BuiltinCollector where
  | payloadScope (self : PayloadScopeCollector)
  | payloadSubjectId
  | staticPermission (self : StaticPermissionCollector)
  | staticRole (self : StaticRoleCollector)
  | requestContext (self : RequestContextAttributeCollector)
  | payloadClaim (self : PayloadClaimAttributeCollector)
  | delegationRange (self : DelegationRangeCollector)

/-- `collect`, whichever it is. -/
def BuiltinCollector.collect : BuiltinCollector → CollectorContext → Attributes
  | payloadScope self => self.collect
  | payloadSubjectId => PayloadSubjectIdCollector.collect
  | staticPermission self => self.collect
  | staticRole self => self.collect
  | requestContext self => self.collect
  | payloadClaim self => self.collect
  | delegationRange self => self.collect

/-- A rule collector of this package. -/
inductive BuiltinRuleCollector where
  | scope (self : ResourceActionScopeRuleCollector)
  | permission
  | delegationRange (self : DelegationRangeRuleCollector)

def BuiltinRuleCollector.collect : BuiltinRuleCollector → CollectorContext → List AnyRule
  | scope self => self.collect
  | permission => ResourceActionPermissionRuleCollector.collect
  | delegationRange self => self.collect

/-- A registry of factories: each takes its entry of the config, and may throw. -/
abbrev FactoryRegistry (T : Type) := Registry (Value → Except Str T)

section Module

variable (string : Value → Str) (upper : UInt16 → Str) (keys : AttributeKeyRegistry)

/-- What the module registers for the attribute pipeline. -/
def attributeCollectorFactories : List (Str × (Value → Except Str BuiltinCollector)) :=
  [ (js "PayloadScopeCollector", fun config => (PayloadScopeCollector.new config).map .payloadScope)
    , (js "PayloadSubjectIdCollector", fun _ => .ok .payloadSubjectId)
    , (js "StaticPermissionCollector", fun config => (StaticPermissionCollector.new config).map .staticPermission)
    , (js "StaticRoleCollector", fun config => (StaticRoleCollector.new config).map .staticRole)
    , (js "RequestContextAttributeCollector",
        fun config => (RequestContextAttributeCollector.new string upper keys config).map .requestContext)
    , (js "PayloadClaimAttributeCollector",
        fun config => (PayloadClaimAttributeCollector.new string upper keys config).map .payloadClaim)
    , (js "DelegationRangeCollector", fun config => (DelegationRangeCollector.new config).map .delegationRange) ]

/-- What it registers for the rule pipeline. -/
def ruleCollectorFactories : List (Str × (Value → Except Str BuiltinRuleCollector)) :=
  [ (js "ResourceActionScopeRuleCollector",
      fun config => (ResourceActionScopeRuleCollector.new string config).map .scope)
    , (js "ResourceActionPermissionRuleCollector", fun _ => .ok .permission)
    , (js "DelegationRangeRuleCollector",
        fun config => (DelegationRangeRuleCollector.new config).map .delegationRange) ]

/-- `builtinCollectorsModule.init`: the registrations, one after the other. -/
def registerAll {T : Type} (registry : FactoryRegistry T) (factories : List (Str × (Value → Except Str T))) :
    Except Str (FactoryRegistry T) :=
  factories.foldlM (fun registry factory => registry.register factory.1 factory.2) registry

/-- The collectors an app's config names: each entry's factory is looked up and given the entry. -/
def resolveEntries {T : Type} (registry : FactoryRegistry T) (entries : List (Str × Value)) : Except Str (List T) :=
  entries.mapM fun entry => do
    let factory ← registry.get entry.1
    factory entry.2

/-- The collectors of both pipelines of an app that loads this package alone. -/
structure Deployment where
  attributeCollectors : List BuiltinCollector
  ruleCollectors : List BuiltinRuleCollector

/-- A deployment, from the entries of its config. -/
def Deployment.assemble (attributeEntries ruleEntries : List (Str × Value)) : Except Str Deployment := do
  let attributeRegistry ← registerAll {} (attributeCollectorFactories string upper keys)
  let ruleRegistry ← registerAll {} (ruleCollectorFactories string)
  let attributeCollectors ← resolveEntries attributeRegistry attributeEntries
  let ruleCollectors ← resolveEntries ruleRegistry ruleEntries
  .ok { attributeCollectors, ruleCollectors }

end Module

namespace Deployment

/-- What its attribute collectors resolve with. -/
def maps (d : Deployment) (context : CollectorContext) : List Attributes :=
  d.attributeCollectors.map (·.collect context)

/-- What its rule collectors resolve with. -/
def lists (d : Deployment) (context : CollectorContext) : List (List AnyRule) :=
  d.ruleCollectors.map (·.collect context)

end Deployment

end PolicyVerifier.Builtins

import PolicyVerifier.Builtins.Collectors
import PolicyVerifier.Cedar.PolicyRule

/-!
# The request as attributes

`RequestFactsCollector` and the keys this package reserves for it, and the attribute collectors of an app that
loads this package and the builtins: each module registers its own factories, in the order the app lists the
modules.
-/

namespace PolicyVerifier.Cedar

open Js PolicyVerifier.Core PolicyVerifier.Builtins

/-! ## The keys -/

def attrRequestAction : Str := js "requestAction"
def attrRequestResourceType : Str := js "requestResourceType"
def attrRequestResourceId : Str := js "requestResourceId"
def attrRequestResourceRaw : Str := js "requestResourceRaw"

/-- `CEDAR_ATTRIBUTE_KEY_OWNER`. -/
def cedarAttributeKeyOwner : Str := js "@o3co/auth.policy-verifier.cedar"

/-- `CEDAR_ATTRIBUTE_KEYS`. -/
def cedarAttributeKeys : List Str :=
  [attrRequestAction, attrRequestResourceType, attrRequestResourceId, attrRequestResourceRaw]

/-- The call this package makes itself when its keys' module is loaded. -/
def cedarReservation : AttributeKeyReservationRequest where
  owner := .str cedarAttributeKeyOwner
  keys := .iterable (cedarAttributeKeys.map .str) none
  reason := some (js "the parsed request, written by RequestFactsCollector and read by CedarPolicyRuleCollector to build the Cedar (principal, action, resource, context) request")

/-! ## The collector -/

/-- `RequestFactsCollector.collect`. A resource without an id leaves its key absent. -/
def RequestFactsCollector.collect (context : CollectorContext) : Attributes :=
  let attributes : Attributes := OrderedMap.ofList
    [ (attrRequestAction, .str context.action)
      , (attrRequestResourceType, .str context.resource.resourceType)
      , (attrRequestResourceRaw, .str context.resource.raw) ]
  match context.resource.resourceId with
  | some resourceId => attributes.set attrRequestResourceId (.str resourceId)
  | none => attributes

/-! ## An app that loads both packages -/

/-- An attribute collector of either package. -/
inductive AppCollector where
  | builtin (self : BuiltinCollector)
  | requestFacts

def AppCollector.collect : AppCollector → CollectorContext → Attributes
  | builtin self => self.collect
  | requestFacts => RequestFactsCollector.collect

/-- The modules such an app lists. -/
inductive AppModule where
  | builtinCollectors
  | cedarPolicy
deriving DecidableEq

section Modules

variable (string : Value → Str) (upper : UInt16 → Str) (keys : AttributeKeyRegistry)

/-- What a module registers for the attribute pipeline. -/
def AppModule.factories : AppModule → List (Str × (Value → Except Str AppCollector))
  | builtinCollectors =>
    (attributeCollectorFactories string upper keys).map fun factory =>
      (factory.1, fun config => (factory.2 config).map .builtin)
  | cedarPolicy => [(js "RequestFactsCollector", fun _ => .ok .requestFacts)]

/-- The attribute collectors of the app: the modules register one after the other, and each entry of the config
is resolved by its name. -/
def assembleCollectors (modules : List AppModule) (entries : List (Str × Value)) :
    Except Str (List AppCollector) := do
  let registry ← registerAll {} (modules.flatMap (AppModule.factories string upper keys))
  resolveEntries registry entries

end Modules

/-- What the collectors resolve with. -/
def appMaps (collectors : List AppCollector) (context : CollectorContext) : List Attributes :=
  collectors.map (·.collect context)

end PolicyVerifier.Cedar

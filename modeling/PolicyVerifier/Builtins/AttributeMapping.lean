import PolicyVerifier.Core.Keys
import PolicyVerifier.Core.Pipelines

/-!
# Promoted fields

The declaration of the fields a mapping collector promotes, how a field is read, and the collector that
promotes fields of the caller's request context. `string` is how a template literal writes a value, and
`upper` is `toUpperCase` of one code unit.
-/

namespace PolicyVerifier.Builtins

open Js PolicyVerifier.Core

/-- Types a field may be promoted as. -/
inductive AttributeMappingType where
  | string
  | number
  | boolean
  | strings
deriving DecidableEq

/-- The word a declaration spells a type with. -/
def AttributeMappingType.name : AttributeMappingType → Str
  | string => js "string"
  | number => js "number"
  | boolean => js "boolean"
  | strings => js "string[]"

/-- `ATTRIBUTE_MAPPING_TYPES`. -/
def attributeMappingTypes : List AttributeMappingType := [.string, .number, .boolean, .strings]

/-- `ResolvedAttributeMapping`. -/
structure ResolvedAttributeMapping where
  «from» : Str
  «to» : Str
  type : AttributeMappingType
deriving DecidableEq

/-- What a collector decides about a mapping onto a reserved key: the refusal, or none to allow it. -/
abbrev ReservedKeyPolicy := Nat → AttributeKeyReservation → Option Str

/-! ## The declaration -/

section Parsing

variable (string : Value → Str) (registry : AttributeKeyRegistry) (collector : Str)
  (reservedKeyPolicy : ReservedKeyPolicy)

/-- `typeof raw === "string" && raw !== ""`. -/
def nonEmpty? : Value → Option Str
  | .str s => if s = [] then none else some s
  | _ => none

/-- The `type` option, `"string"` when it is absent. -/
def mappingType? (raw : Value) : Option AttributeMappingType :=
  match raw with
  | .undefined => some .string
  | .str name => attributeMappingTypes.find? fun type => decide (type.name = name)
  | _ => none

/-- The resolved key, checked against the registry. -/
def checkReserved (index : Nat) (key : Str) : Except Str Unit :=
  match registry.attributeKeyReservation key with
  | none => .ok ()
  | some reservation =>
    match reservedKeyPolicy index reservation with
    | some refusal => .error refusal
    | none => .ok ()

/-- One mapping of the declaration. `to` defaults to `from`, and the key is checked as resolved. -/
def parseAttributeMapping (index : Nat) (mapping : Value) : Except Str ResolvedAttributeMapping :=
  let place := collector ++ js ": attributes[" ++ decimal index ++ js "]"
  match nonEmpty? (mapping.field (js "from")) with
  | none => .error (place ++ js ".from must be a non-empty string")
  | some source =>
    let destination := mapping.field (js "to")
    match if destination = .undefined then some source else nonEmpty? destination with
    | none => .error (place ++ js ".to must be a non-empty string")
    | some key =>
      match mappingType? (mapping.field (js "type")) with
      | none => .error (place ++ js ".type must be one of " ++
          join (js ", ") (attributeMappingTypes.map AttributeMappingType.name) ++
          js ", got \"" ++ string (mapping.field (js "type")) ++ js "\"")
      | some type => (checkReserved registry reservedKeyPolicy index key).map fun _ =>
          { «from» := source, «to» := key, type }

/-- The mappings of the declaration, from an index on: the first that is refused refuses it. -/
def parseMappings : Nat → List Value → Except Str (List ResolvedAttributeMapping)
  | _, [] => .ok []
  | index, mapping :: mappings => do
    let resolved ← parseAttributeMapping string registry collector reservedKeyPolicy index mapping
    let rest ← parseMappings (index + 1) mappings
    .ok (resolved :: rest)

/-- Validates the declaration at construction. -/
def parseAttributeMappings (config : Value) : Except Str (List ResolvedAttributeMapping) :=
  match config.field (js "attributes") with
  | .arr _ mappings =>
    if mappings = [] then .error refused
    else parseMappings string registry collector reservedKeyPolicy 0 mappings
  | _ => .error refused
where
  /-- What a declaration that lists no mapping is refused with. -/
  refused : Str := collector ++ js ": attributes must be a non-empty array of mappings"

end Parsing

/-! ## Reading a field -/

/-- An own property of an object: an array has its indices and its length. -/
def own? (value : Value) (name : Str) : Option Value :=
  match value with
  | .obj _ props => Value.findProp name props
  | .arr _ items =>
    if name = js "length" then some (.num (.rat items.length))
    else ((List.range items.length).find? fun i => decide (decimal i = name)).bind fun i => items[i]?
  | _ => none

/-- Walks own properties only. -/
def walk : Value → List Str → Value
  | current, [] => current
  | current, segment :: segments =>
    match own? current segment with
    | none => .undefined
    | some next => walk next segments

/-- Reads a field: the exact own key when the source has one, else a dot path. -/
def readPath (root : List (Str × Value)) (path : Str) : Value :=
  match Value.findProp path root with
  | some value => value
  | none => walk (.obj 0 root) (path.splitOn 0x2E)

/-- Whether a value is usable as the declared type. -/
def matchesType (value : Value) (type : AttributeMappingType) : Bool :=
  match type, value with
  | .string, .str s => decide (s ≠ [])
  | .number, .num n => n.isFinite
  | .boolean, .bool _ => true
  | .strings, .arr _ items => items.all fun item => (nonEmpty? item).isSome
  | _, _ => false

/-- The value as it is promoted: a list is a copy. -/
def promoted (raw : Value) : Value :=
  match raw.items? with
  | some items => Value.list items
  | none => raw

/-- Promotes every declared field whose value matches its declared type, into a fresh map. -/
def promoteMappings (mappings : List ResolvedAttributeMapping) (source : List (Str × Value)) :
    Attributes :=
  mappings.foldl (fun attrs mapping =>
    let raw := readPath source mapping.«from»
    if matchesType raw mapping.type then attrs.set mapping.«to» (promoted raw) else attrs) ∅

/-! ## The collector -/

/-- What an attribute collector's promise settles with, for a request. -/
abbrev AttributeCollector := CollectorContext → Except Thrown Attributes

structure RequestContextAttributeCollector where
  mappings : List ResolvedAttributeMapping

namespace RequestContextAttributeCollector

/-- Why a mapping onto a reserved key is refused, in the words of whoever owns the key. -/
def refusal (upper : UInt16 → Str) (registry : AttributeKeyRegistry) (index : Nat)
    (reservation : AttributeKeyReservation) : Str :=
  let head :=
    if reservation.owner = coreAttributeKeyOwner then
      js "RequestContextAttributeCollector: attributes[" ++ decimal index ++
        js "] maps onto the reserved core attribute \"" ++ reservation.key ++
        js "\". That key is the engine's own vocabulary, written by the deployment — from the signature-verified token for scopes/userId/clientId, from configuration for roles/permissions — while requestContext is caller-supplied, and array attributes union across collectors, so this mapping would let the request body extend the deployment's value rather than contribute a separate attribute. "
    else
      js "RequestContextAttributeCollector: attributes[" ++ decimal index ++
        js "] maps onto the reserved attribute \"" ++ reservation.key ++ js "\", which belongs to " ++
        reservation.owner ++
        (match reservation.reason with | none => [] | some reason => js " — " ++ reason) ++
        js ". That package writes the key from what the deployment established, while requestContext is caller-supplied: where both write a scalar key the values collide and every such request is denied, where both write a list key the caller's entries join the package's, and where that package writes nothing for a given request the caller's value stands unopposed as the one the deployment was supposed to supply. "
  head ++ js "Promote the field under a key of your own (for example \"" ++
    registry.suggestUnreservedAttributeKey upper reservation.key ++ js "\")."

def new (string : Value → Str) (upper : UInt16 → Str) (registry : AttributeKeyRegistry)
    (config : Value) : Except Str RequestContextAttributeCollector :=
  (parseAttributeMappings string registry (js "RequestContextAttributeCollector")
    (fun index reservation => some (refusal upper registry index reservation)) config).map (⟨·⟩)

/-- The declared fields of the request context, or nothing when the request carries none. -/
def collect (self : RequestContextAttributeCollector) (context : CollectorContext) : Attributes :=
  match context.requestContext with
  | none => ∅
  | some requestContext => promoteMappings self.mappings requestContext

end RequestContextAttributeCollector

/-- `AttributePipeline.collect` over collectors that settle: their maps in list order, merged. -/
def collectAll (collectors : List AttributeCollector) (context : CollectorContext) :
    Except Thrown Attributes :=
  collectAttributes ((collectors.mapM fun (collector : AttributeCollector) => collector context).map
    (List.map some))

end PolicyVerifier.Builtins

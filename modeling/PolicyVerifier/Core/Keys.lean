import PolicyVerifier.Core.Types
import PolicyVerifier.Js.Json
import PolicyVerifier.Js.Text

/-!
# The attribute keys and who owns them

The registry of reserved keys, and the key a refusal advises instead of one. A package reserves the keys
it writes when it is loaded; `upper` is `toUpperCase` of one code unit.
-/

namespace PolicyVerifier.Core

open Js

def attrScopes : Str := js "scopes"
def attrPermissions : Str := js "permissions"
def attrRoles : Str := js "roles"
def attrUserId : Str := js "userId"
def attrClientId : Str := js "clientId"

/-- `CORE_ATTRIBUTE_KEY_OWNER`. -/
def coreAttributeKeyOwner : Str := js "@o3co/auth.policy-verifier.core"

/-- One package's claim on one attribute key. -/
structure AttributeKeyReservation where
  key : Str
  owner : Str
  reason : Option Str := none
deriving DecidableEq

/-- The registry: the reservations, and their keys as one set, kept in step. -/
structure AttributeKeyRegistry where
  reservations : OrderedMap Str AttributeKeyReservation := ∅
  reservedKeys : List Str := []
  inStep : ∀ key, key ∈ reservedKeys ↔ key ∈ reservations.keys := by simp

namespace AttributeKeyRegistry

/-- `RESERVED_ATTRIBUTE_KEYS.has(key)`. -/
def has (registry : AttributeKeyRegistry) (key : Str) : Bool := decide (key ∈ registry.reservedKeys)

/-- `attributeKeyReservation`: who owns the key, if anyone does. -/
def attributeKeyReservation (registry : AttributeKeyRegistry) (key : Str) :
    Option AttributeKeyReservation :=
  registry.reservations.get? key

theorem attributeKeyReservation_isSome (registry : AttributeKeyRegistry) (key : Str) :
    (registry.attributeKeyReservation key).isSome = registry.has key := by
  rw [Bool.eq_iff_iff, attributeKeyReservation, OrderedMap.get?_isSome_iff, has, decide_eq_true_iff,
    registry.inStep]

/-- One reservation written. -/
def write (registry : AttributeKeyRegistry) (reservation : AttributeKeyReservation) :
    AttributeKeyRegistry where
  reservations := registry.reservations.set reservation.key reservation
  reservedKeys := if reservation.key ∈ registry.reservedKeys then registry.reservedKeys
    else registry.reservedKeys ++ [reservation.key]
  inStep key := by
    rw [OrderedMap.keys_set, ← registry.inStep]
    split
    · rename_i hmem
      exact ⟨Or.inr, fun h => h.elim (fun heq => heq ▸ hmem) id⟩
    · simp [or_comm]

/-- How a refused value is named. -/
def describe : Value → Str
  | .null => js "null"
  | .arr _ _ => js "array"
  | .str s => Json.quote s
  | v => v.typeOf

/-- The keys of a request that are not reserved yet, or why one cannot be. -/
def pending (registry : AttributeKeyRegistry) (owner : Str) (reason : Option Str) :
    List Value → Except Str (List AttributeKeyReservation)
  | [] => .ok []
  | value :: values =>
    match value with
    | .str key =>
      if key = [] then .error (refusedKey owner value)
      else
        match registry.reservations.get? key with
        | none => (registry.pending owner reason values).map ({ key, owner, reason } :: ·)
        | some held =>
          if held.owner = owner then registry.pending owner reason values
          else .error (js "reserveAttributeKeys: attribute key \"" ++ key ++
            js "\" is already reserved by " ++ held.owner ++ js ", so " ++ owner ++
            js " cannot also reserve it. An attribute key names one package's vocabulary; two owners leave no answer to which of them writes it. Rename one of the two keys.")
    | _ => .error (refusedKey owner value)
where
  /-- What a key that is not a non-empty string is refused with. -/
  refusedKey (owner : Str) (value : Value) : Str :=
    js "reserveAttributeKeys: " ++ owner ++
      js " supplied a key that is not a non-empty string, got " ++ describe value

/-- Reserves the keys a package owns. Nothing is registered when it throws. -/
def reserveAttributeKeys (registry : AttributeKeyRegistry) (owner keys : Value) (reason : Option Str) :
    Except Str AttributeKeyRegistry :=
  match owner with
  | .str name =>
    if name = [] then .error (refusedOwner owner)
    else
      match keys with
      | .arr _ items => (registry.pending name reason items).map (List.foldl write registry)
      | _ => .error (js "reserveAttributeKeys: keys must be a non-string iterable")
  | _ => .error (refusedOwner owner)
where
  /-- What an owner that is not a package name is refused with. -/
  refusedOwner (owner : Value) : Str :=
    js "reserveAttributeKeys: owner must be a non-empty package name, got " ++ describe owner

/-! ## The advised key -/

section Suggestion

variable (upper : UInt16 → Str)

/-- `SUGGESTION_PREFIXES`. -/
def suggestionPrefixes : List Str := [js "request", js "caller", js "context"]

def capitalize : Str → Str
  | [] => []
  | c :: cs => upper c ++ cs

/-- The numbered candidates, the first of them without its number. -/
def numbered (key : Str) (n : Nat) : Str :=
  if n = 0 then key ++ js "Attribute" else key ++ js "Attribute" ++ decimal (n + 1)

/-- `suggestUnreservedAttributeKey`. Among one more candidate than there are reserved keys, one is not
reserved. -/
def suggestUnreservedAttributeKey (registry : AttributeKeyRegistry) (key : Str) : Str :=
  let prefixed := (suggestionPrefixes.filter fun p => !startsWith p key).map (· ++ capitalize upper key)
  match prefixed.find? fun candidate => !registry.has candidate with
  | some candidate => candidate
  | none =>
    (((List.range (registry.reservedKeys.length + 1)).map (numbered key)).find? fun candidate =>
      !registry.has candidate).getD []

end Suggestion

end AttributeKeyRegistry

end PolicyVerifier.Core

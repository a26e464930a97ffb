import PolicyVerifier.Core.Keys

/-!
# Reserving keys, call by call

The registry as the module holds it: a map and a set, which a call writes one after the other. A call reads its
keys off an iterable, which may hand over anything and may throw midway, and what it throws finds the state as
it is then. The calls come one after the other.
-/

namespace PolicyVerifier.Core

open Js

/-- The module's state: `reservations`, and `reservedKeys` in the order they were added. -/
structure RegistryState where
  reservations : OrderedMap Str AttributeKeyReservation := ∅
  reservedKeys : List Str := []

/-- The `keys` of a request, as a call reads them. -/
inductive ReservationKeys where
  /-- A string, `null`, `undefined`, or a value with no iterator. -/
  | notIterable
  /-- The values the iterator hands over; then it is done, or throws. -/
  | iterable (values : List Value) (thrown : Option Value)

/-- What a call is given: one package, its keys, and why. -/
structure AttributeKeyReservationRequest where
  owner : Value := .undefined
  keys : ReservationKeys := .notIterable
  reason : Option Str := none

/-- What a call throws. -/
inductive ReservationError where
  /-- The owner is not a non-empty string. -/
  | owner (got : Value)
  | notIterable
  /-- A key is not a non-empty string. -/
  | key (owner : Str) (got : Value)
  /-- A key is held by another owner. -/
  | held (owner key holder : Str)
  /-- What the iterator throws. -/
  | iterator (thrown : Value)

/-- The text of an error the call makes itself. -/
def ReservationError.message : ReservationError → Option Str
  | .owner got => some (js "reserveAttributeKeys: owner must be a non-empty package name, got " ++
      AttributeKeyRegistry.describe got)
  | .notIterable => some (js "reserveAttributeKeys: keys must be a non-string iterable")
  | .key name got => some (js "reserveAttributeKeys: " ++ name ++
      js " supplied a key that is not a non-empty string, got " ++ AttributeKeyRegistry.describe got)
  | .held name taken holder => some (js "reserveAttributeKeys: attribute key \"" ++ taken ++
      js "\" is already reserved by " ++ holder ++ js ", so " ++ name ++
      js " cannot also reserve it. An attribute key names one package's vocabulary; two owners leave no answer to which of them writes it. Rename one of the two keys.")
  | .iterator _ => none

namespace RegistryState

/-- `attributeKeyReservation`. -/
def attributeKeyReservation (state : RegistryState) (key : Str) : Option AttributeKeyReservation :=
  state.reservations.get? key

/-- `reservations.set`. -/
def setReservation (reservation : AttributeKeyReservation) (state : RegistryState) : RegistryState :=
  { state with reservations := state.reservations.set reservation.key reservation }

/-- `reservedKeys.add`. -/
def addKey (key : Str) (state : RegistryState) : RegistryState :=
  { state with reservedKeys := if key ∈ state.reservedKeys then state.reservedKeys else state.reservedKeys ++ [key] }

end RegistryState

/-- A computation of the module: it may throw, and then the state is as it was left. -/
abbrev RegistryM := ExceptT ReservationError (StateM RegistryState)

/-- The loop over the keys: the reservations that are not made yet, after those pending already. -/
def pendingReservations (owner : Str) (reason : Option Str) (thrown : Option Value) :
    List AttributeKeyReservation → List Value → RegistryM (List AttributeKeyReservation)
  | pending, [] =>
    match thrown with
    | none => pure pending
    | some error => throw (.iterator error)
  | pending, .str key :: values =>
    if key = [] then throw (.key owner (.str key))
    else do
      match (← get).reservations.get? key with
      | none => pendingReservations owner reason thrown (pending ++ [{ key, owner, reason }]) values
      | some held =>
        if held.owner = owner then pendingReservations owner reason thrown pending values
        else throw (.held owner key held.owner)
  | _, value :: _ => throw (.key owner value)

/-- The loop over the pending reservations. -/
def writeReservations : List AttributeKeyReservation → RegistryM Unit
  | [] => pure ()
  | reservation :: pending => do
    modify (RegistryState.setReservation reservation)
    modify (RegistryState.addKey reservation.key)
    writeReservations pending

/-- `reserveAttributeKeys`. A request that is `null` or `undefined` is read as an empty one. -/
def reserveAttributeKeys (request : Option AttributeKeyReservationRequest) : RegistryM Unit :=
  let { owner, keys, reason } := request.getD {}
  match owner with
  | .str name =>
    if name = [] then throw (.owner owner)
    else
      match keys with
      | .notIterable => throw .notIterable
      | .iterable values thrown => do
        let pending ← pendingReservations name reason thrown [] values
        writeReservations pending
  | _ => throw (.owner owner)

/-- A call: how it ends, and the state it leaves. -/
def RegistryState.call (state : RegistryState) (request : Option AttributeKeyReservationRequest) :
    Except ReservationError Unit × RegistryState :=
  (reserveAttributeKeys request).run.run state

/-- The state after calls that follow one another. -/
def RegistryState.after (state : RegistryState) (calls : List (Option AttributeKeyReservationRequest)) :
    RegistryState :=
  calls.foldl (fun state request => (state.call request).2) state

/-- The call core makes itself when the module is loaded. -/
def coreReservation : AttributeKeyReservationRequest where
  owner := .str coreAttributeKeyOwner
  keys := .iterable ([attrScopes, attrPermissions, attrRoles, attrUserId, attrClientId].map .str) none
  reason := some (js "the engine's own vocabulary, written by the deployment — from the signature-verified token for scopes/userId/clientId, from configuration for roles/permissions")

end PolicyVerifier.Core
